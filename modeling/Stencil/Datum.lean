import Stencil.Number
import Stencil.Text.Quoted

/-!
Data: the values that callers hand to a template, to a log record or to an error record. A datum
has two texts, the plain one that is written out and the quoted one that is used inside other data
and in messages.
-/

namespace Stencil

inductive Datum where
  | null
  | bool (value : Bool)
  | int (value : Int)
  | float (value : Float)
  | text (value : String)
  | bytes (value : List UInt8)
  | tuple (items : List Datum)
  | list (items : List Datum)
  | table (entries : List (Datum × Datum))
  /-- An object that is known by its kind and its printed form only. -/
  | object (kind shown : String)
  deriving Inhabited

namespace Datum

def kind : Datum → String
  | null => "NoneType"
  | bool _ => "bool"
  | int _ => "int"
  | float _ => "float"
  | text _ => "str"
  | bytes _ => "bytes"
  | tuple _ => "tuple"
  | list _ => "list"
  | table _ => "dict"
  | object kind _ => kind

def number? : Datum → Option Number
  | bool b => some (.int (if b then 1 else 0))
  | int i => some (.int i)
  | float x => some (.float x)
  | _ => none

def ofNumber : Number → Datum
  | .int i => int i
  | .float x => float x

/-- The text of a tuple from those of its items; one item alone keeps its comma. -/
def tupleText : List String → String
  | [only] => "(" ++ only ++ ",)"
  | items => "(" ++ ", ".intercalate items ++ ")"

def listText (items : List String) : String :=
  "[" ++ ", ".intercalate items ++ "]"

def tableText (entries : List (String × String)) : String :=
  "\x7b" ++ ", ".intercalate (entries.map fun (k, v) => k ++ ": " ++ v) ++ "\x7d"

mutual

def quoted : Datum → String
  | null => "None"
  | bool b => if b then "True" else "False"
  | int i => toString i
  | float x => Decimal.Layout.display.text x
  | text s => Text.quoted s
  | bytes bs => Text.quotedBytes bs
  | tuple items => tupleText (quotedItems items)
  | list items => listText (quotedItems items)
  | table entries => tableText (quotedEntries entries)
  | object _ shown => shown

def quotedItems : List Datum → List String
  | [] => []
  | d :: ds => quoted d :: quotedItems ds

def quotedEntries : List (Datum × Datum) → List (String × String)
  | [] => []
  | (k, v) :: rest => (quoted k, quoted v) :: quotedEntries rest

end

def plain : Datum → String
  | text s => s
  | d => quoted d

mutual

/-- Equality of data: numbers by value, sequences item by item, tables as unordered maps. -/
def same : Datum → Datum → Bool
  | null, null => true
  | text a, text b => a == b
  | bytes a, bytes b => a == b
  | tuple a, tuple b => sameItems a b
  | list a, list b => sameItems a b
  | table a, table b => a.length == b.length && coveredBy a b
  | object k a, object l b => k == l && a == b
  | a, b =>
    match number? a, number? b with
    | some x, some y => x.eq y
    | _, _ => false

def sameItems : List Datum → List Datum → Bool
  | [], [] => true
  | a :: as, b :: bs => same a b && sameItems as bs
  | _, _ => false

def coveredBy : List (Datum × Datum) → List (Datum × Datum) → Bool
  | [], _ => true
  | (k, v) :: rest, other => (other.any fun (l, w) => same k l && same v w) && coveredBy rest other

end

def insert (entries : List (Datum × Datum)) (key value : Datum) : List (Datum × Datum) :=
  if entries.any (fun (k, _) => k.same key) then
    entries.map fun (k, v) => if k.same key then (k, value) else (k, v)
  else entries ++ [(key, value)]

def tableOf (entries : List (Datum × Datum)) : Datum :=
  table (entries.foldl (fun t (k, v) => insert t k v) [])

def isTrue : Datum → Bool
  | null => false
  | bool b => b
  | int i => i != 0
  | float x => x != 0.0
  | text s => s != ""
  | bytes bs => !bs.isEmpty
  | tuple items => !items.isEmpty
  | list items => !items.isEmpty
  | table entries => !entries.isEmpty
  | object _ _ => true

end Datum

end Stencil
