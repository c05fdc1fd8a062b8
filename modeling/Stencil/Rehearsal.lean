import Stencil.Compiler

/-!
Rehearsals: a backend that plays back what it is told instead of running sources. It makes the classes
and values of its script in the new module and answers with the emission of the script, so that all
that a compiler does around its backend can be seen alone.
-/

namespace Stencil

open Script

structure Rehearsal where
  extension : String := "txt"
  included : Machine → List Reference := fun _ => []
  /-- The names of classes to make. -/
  classes : List String := []
  values : List (String × Datum) := []
  emission : Emission
  /-- The error that emitting raises instead. -/
  refusal : Option String := none

namespace Rehearsal

open Run

def sourceMark : String := "<source>"

def makeClasses (b : Builder) : List String → Run Unit
  | [] => pure ()
  | name :: rest => do
    let attributes := Bindings.ofList [("__module__", Value.text b.space)]
    let made (ref : Nat) : Script.Class :=
      { name, path := name, bases := [.builtin "object"],
        order := [.defined ref, .builtin "object"], attributes }
    let ref ← alloc (.cls (made 0))
    modifyHeap ref (.cls (made ref))
    putAttribute b.module name (.cls (.defined ref))
    makeClasses b rest

def putValues (module : Nat) : List (String × Datum) → Run Unit
  | [] => pure ()
  | (name, d) :: rest => do
    putAttribute module name (← ofDatum d)
    putValues module rest

def placed (source : String) (d : Diagnostic) : Diagnostic :=
  if d.location.path == sourceMark then { d with location := { d.location with path := source } }
  else d

def emit (r : Rehearsal) (a : Assembly) (b : Builder) : Run Emission := do
  makeClasses b r.classes
  putValues b.module r.values
  match r.refusal with
  | some message => valueError message
  | none =>
    let source := (a.sources.head?.map (·.path)).getD ""
    return { r.emission with diagnostics := r.emission.diagnostics.map (placed source) }

def backend (r : Rehearsal) : Backend :=
  { extension := r.extension
    included := r.included
    options := fun c => { c.options with kind := .console }
    emit := r.emit }

end Rehearsal

end Stencil
