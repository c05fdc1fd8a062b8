import Stencil.Script.Interpreter

/-!
Portraits: values as they are shown outside the machine. Data is shown whole; what has an identity is
shown by its name, and an error by its class and its text.
-/

namespace Stencil.Script

inductive Portrait where
  | data (value : Datum)
  | tuple (items : List Portrait)
  | list (items : List Portrait)
  | table (entries : List (Portrait × Portrait))
  /-- The items of a set, in order. -/
  | set (items : List Portrait)
  | module (name : String)
  | cls (name : String)
  | function (path : String)
  | error (kind text : String)
  | other (kind : String)
  deriving Inhabited

namespace Portrait

open Run

def top : Deeper := Interpreter.top

def depthLimit : Nat := 64

def className (c : ClassRef) : Run String := do
  let module ← plainStep top (← moduleOf c)
  return module ++ "." ++ (← pathOf c)

/-- The items of a set in order; those that cannot be compared are ordered by their texts. -/
def inOrder (items : List Value) : Run (List Value) :=
  handling (Containers.sortItems top items []) fun _ => do
    let keyed ← items.mapM fun v => do pure (← quotedStep top v, v)
    return (keyed.mergeSort fun a b => a.1 ≤ b.1).map Prod.snd

mutual

def ofValue : Nat → Value → Run Portrait
  | 0, v => do return .other (← kindOf v)
  | depth + 1, v => do
    match v with
    | .none => return .data .null
    | .bool b => return .data (.bool b)
    | .int i => return .data (.int i)
    | .float x => return .data (.float x)
    | .text s => return .data (.text s)
    | .bytes bs => return .data (.bytes bs)
    | .tuple items => return .tuple (← ofValues depth items)
    | .cls c => return .cls (← className c)
    | .object ref =>
      let o ← object ref
      match o with
      | .list items => return .list (← ofValues depth items)
      | .dict _ | .attributesOf _ => return .table (← ofEntries depth (← entriesOf o))
      | .set _ items => return .set (← ofValues depth (← inOrder items))
      | .module attrs =>
        match attrs.get? "__name__" with
        | some (.text n) => return .module n
        | _ => return .module ""
      | .function f => return .function f.path
      | .error c _ _ _ => return .error (← nameOf c) (← plainStep top v)
      | _ => return .other (← kindOf v)
    | .routine name =>
      if (← kindOf v) == "function" then
        match ← member? top v "__qualname__" with
        | some (.text path) => return .function path
        | _ => return .function name
      else return .other (← kindOf v)
    | v => return .other (← kindOf v)
  termination_by depth _ => (depth, 0)

def ofValues (depth : Nat) : List Value → Run (List Portrait)
  | [] => return []
  | v :: vs => do return (← ofValue depth v) :: (← ofValues depth vs)
  termination_by items => (depth, items.length + 1)

def ofEntries (depth : Nat) : List (Value × Value) → Run (List (Portrait × Portrait))
  | [] => return []
  | (k, v) :: rest => do return (← ofValue depth k, ← ofValue depth v) :: (← ofEntries depth rest)
  termination_by entries => (depth, entries.length + 1)

end

def of (v : Value) : Run Portrait := ofValue depthLimit v

end Portrait

/-- A warning as a host shows it: the name of its category, and the text of its message. -/
def Issued.shown (w : Issued) : Run (String × String) := do
  return (← Run.nameOf w.kind, ← Run.plainStep Interpreter.top w.message)

end Stencil.Script
