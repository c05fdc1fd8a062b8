import Stencil.Script.Exchange
import Stencil.Script.Modules
import Stencil.Script.Program

/-!
Declared modules: modules that a host makes in a machine before anything is compiled. A declaration
gives the attributes of the module and a source that runs in it, and may put it into the table of
modules.
-/

namespace Stencil.Script

structure Declared where
  name : String
  /-- The file that the module names; it may name none, or have no such attribute at all. -/
  file : Option (Option String) := none
  attributes : List (String × Datum) := []
  source : Option String := none
  /-- The name in the table of modules, if the module is registered. -/
  key : Option String := none

namespace Declared

open Run

def putAll (module : Nat) : List (String × Datum) → Run Unit
  | [] => pure ()
  | (name, d) :: rest => do
    putAttribute module name (← ofDatum d)
    putAll module rest

/-- Makes the module of a declaration; an error of its source leaves what was done before it. -/
def make (d : Declared) : Run Nat := do
  let module ← alloc (.module (.ofList [("__name__", .text d.name), ("__doc__", .none),
    ("__package__", .none), ("__loader__", .none), ("__spec__", .none)]))
  match d.file with
  | some file => putAttribute module "__file__" ((file.map Value.text).getD .none)
  | none => pure ()
  putAll module d.attributes
  match d.source with
  | some source => handling (Program.runText source "<string>" module) fun _ => pure ()
  | none => pure ()
  return module

end Declared

def Machine.declare (m : Machine) (d : Declared) : Machine × Option Nat :=
  match d.make.run.run m with
  | (.ok module, m) =>
    let modules := match d.key with
      | some key => m.modules.set key (.object module)
      | none => m.modules
    ({ m with issued := [], modules }, some module)
  | (.error _, m) => (m, none)

end Stencil.Script
