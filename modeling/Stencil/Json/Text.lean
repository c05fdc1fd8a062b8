import Stencil.Datum

/-!
Data as JSON text. The text is printable ASCII: every other character is written as an escape of one
or two units, so that a line of log output cannot be broken by what it reports.
-/

namespace Stencil.Json

open Text (hex)

def unitEscape (unit : Nat) : List Char :=
  '\\' :: 'u' :: hex 4 unit

def escapeChar (c : Char) : List Char :=
  let n := c.toNat
  if c = '"' then ['\\', '"']
  else if c = '\\' then ['\\', '\\']
  else if n = 0x0A then ['\\', 'n']
  else if n = 0x0D then ['\\', 'r']
  else if n = 0x09 then ['\\', 't']
  else if n = 0x0C then ['\\', 'f']
  else if n = 0x08 then ['\\', 'b']
  else if 0x20 ≤ n ∧ n < 0x7F then [c]
  else if n < 0x10000 then unitEscape n
  else
    let m := n - 0x10000
    unitEscape (0xD800 + m / 0x400) ++ unitEscape (0xDC00 + m % 0x400)

def quote (s : String) : String :=
  String.ofList ('"' :: s.toList.flatMap escapeChar ++ ['"'])

inductive WriteError where
  | key (kind : String)
  | value (kind : String)
  deriving DecidableEq, Repr

def WriteError.message : WriteError → String
  | key kind => "keys must be str, int, float, bool or None, not " ++ kind
  | value kind => "Object of type " ++ kind ++ " is not JSON serializable"

/-- The text of a table key before it is quoted; names and numbers become text. -/
def keyText : Datum → Except WriteError String
  | .text s => .ok s
  | .null => .ok "null"
  | .bool b => .ok (if b then "true" else "false")
  | .int i => .ok (toString i)
  | .float x => .ok (Decimal.Layout.json.text x)
  | d => .error (.key d.kind)

abbrev Fallback := Datum → Except WriteError String

def strict : Fallback := fun d => .error (.value d.kind)

def plainText : Fallback := fun d => .ok (quote d.plain)

mutual

def write (fallback : Fallback) : Datum → Except WriteError String
  | .null => .ok "null"
  | .bool b => .ok (if b then "true" else "false")
  | .int i => .ok (toString i)
  | .float x => .ok (Decimal.Layout.json.text x)
  | .text s => .ok (quote s)
  | .tuple items => do return "[" ++ ", ".intercalate (← writeItems fallback items) ++ "]"
  | .list items => do return "[" ++ ", ".intercalate (← writeItems fallback items) ++ "]"
  | .table entries => do
    return "\x7b" ++ ", ".intercalate (← writeEntries fallback entries) ++ "\x7d"
  | .bytes bs => fallback (.bytes bs)
  | .object kind shown => fallback (.object kind shown)

def writeItems (fallback : Fallback) : List Datum → Except WriteError (List String)
  | [] => .ok []
  | d :: ds => do
    let first ← write fallback d
    return first :: (← writeItems fallback ds)

def writeEntries (fallback : Fallback) : List (Datum × Datum) → Except WriteError (List String)
  | [] => .ok []
  | (k, v) :: rest => do
    let key ← keyText k
    let value ← write fallback v
    return (quote key ++ ": " ++ value) :: (← writeEntries fallback rest)

end

end Stencil.Json
