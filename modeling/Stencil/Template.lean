import Stencil.Datum
import Stencil.Text.Markup

/-!
Templates as buffers. A body writes values, which are escaped, and literals, which are not; a run
starts from an empty buffer and joins what its body wrote. What earlier runs and writes left in the
buffer cannot be seen by a run.
-/

namespace Stencil

namespace Datum

inductive AccessError where
  | missing (key : String)
  | unhashable (kind : String)
  | outOfRange (container : String)
  | badIndex (container key : String)
  | noItems (kind : String)
  deriving DecidableEq, Repr

def AccessError.kind : AccessError → String
  | missing _ => "KeyError"
  | outOfRange _ => "IndexError"
  | _ => "TypeError"

def AccessError.message : AccessError → String
  | missing key => key
  | unhashable kind => "unhashable type: '" ++ kind ++ "'"
  | outOfRange "str" => "string index out of range"
  | outOfRange "bytes" => "index out of range"
  | outOfRange container => container ++ " index out of range"
  | badIndex "str" key => "string indices must be integers, not '" ++ key ++ "'"
  | badIndex "bytes" key => "byte indices must be integers or slices, not " ++ key
  | badIndex container key => container ++ " indices must be integers or slices, not " ++ key
  | noItems kind => "'" ++ kind ++ "' object is not subscriptable"

def itemAt? {α : Type} (items : List α) (i : Int) : Option α :=
  if 0 ≤ i then items[i.toNat]?
  else if -i ≤ items.length then items[items.length - i.natAbs]? else none

def position? : Datum → Option Int
  | int i => some i
  | bool b => some (if b then 1 else 0)
  | _ => none

def unhashable? : Datum → Option String
  | list _ => some "list"
  | table _ => some "dict"
  | _ => none

def sequenceItem (kind : String) (items : List Datum) (key : Datum) : Except AccessError Datum :=
  match key.position? with
  | none => .error (.badIndex kind key.kind)
  | some i =>
    match itemAt? items i with
    | some d => .ok d
    | none => .error (.outOfRange kind)

def item (d key : Datum) : Except AccessError Datum :=
  match d with
  | table entries =>
    match key.unhashable? with
    | some kind => .error (.unhashable kind)
    | none =>
      match entries.find? fun (k, _) => k.same key with
      | some (_, v) => .ok v
      | none => .error (.missing key.quoted)
  | list items => sequenceItem "list" items key
  | tuple items => sequenceItem "tuple" items key
  | text s => sequenceItem "str" (s.toList.map fun c => text (String.singleton c)) key
  | bytes bs => sequenceItem "bytes" (bs.map fun b => int b.toNat) key
  | d => .error (.noItems d.kind)

end Datum

structure Template where
  model : Datum := .null
  chunks : List Datum := []

namespace Template

inductive Piece where
  | write (value : Datum)
  | literal (value : Datum)
  /-- Writes the part of the model under the keys, one inside the other. -/
  | model (keys : List Datum)

inductive RunError where
  | access (error : Datum.AccessError)
  /-- A chunk at this position is not text. -/
  | notText (index : Nat) (kind : String)
  deriving DecidableEq, Repr

def RunError.kind : RunError → String
  | access e => e.kind
  | notText _ _ => "TypeError"

def RunError.message : RunError → String
  | access e => e.message
  | notText index kind =>
    "sequence item " ++ toString index ++ ": expected str instance, " ++ kind ++ " found"

def written : Datum → List Datum
  | .null => []
  | d => [.text (Text.escapeMarkup d.plain)]

def write (t : Template) (value : Datum) : Template :=
  { t with chunks := t.chunks ++ written value }

def literal (t : Template) (value : Datum) : Template :=
  { t with chunks := t.chunks ++ [value] }

def join : Nat → List Datum → Except RunError String
  | _, [] => .ok ""
  | n, .text s :: rest => (join (n + 1) rest).map (s ++ ·)
  | n, d :: _ => .error (.notText n d.kind)

def step (t : Template) : Piece → Template × Option RunError
  | .write v => (t.write v, none)
  | .literal v => (t.literal v, none)
  | .model keys =>
    match keys.foldlM Datum.item t.model with
    | .ok v => (t.write v, none)
    | .error e => (t, some (.access e))

def execute : Template → List Piece → Template × Option RunError
  | t, [] => (t, none)
  | t, p :: ps =>
    match t.step p with
    | (t, none) => execute t ps
    | (t, some e) => (t, some e)

def run (_ : Template) (model : Datum) (body : List Piece) : Template × Except RunError String :=
  match execute ⟨model, []⟩ body with
  | (t, some e) => (t, .error e)
  | (t, none) => (t, join 0 t.chunks)

end Template

end Stencil
