import Stencil.Script.Execution

/-!
The interpreter: calls are carried out one level deeper than the code that makes them, down to a
limit. This closes the circle between values that can be called and the code that calls them.
-/

namespace Stencil.Script

namespace Interpreter

open Run

def frameOf (c : Closure) (scope : Nat) (yielded : Option Nat) : Frame :=
  { file := c.file, kind := .function, globals := c.globals, space := scope, locals := c.locals
    globalNames := c.globalNames, scopes := c.scopes, path := c.path ++ ".<locals>."
    owner := c.owner, yielded
    subject := (Signature.ofParameters c.path c.parameters).positional.head? }

def firstLine (c : Closure) : Nat :=
  match c.body with
  | .expression e => e.pos.line
  | .statements (s :: _) => s.pos.line
  | .statements [] => 1

def bodyOf (d : Deeper) (f : Frame) : Body → Run Value
  | .expression e => Evaluation.eval d f e
  | .statements body => do
    match ← Execution.execBody d f body with
    | .ret v => return v
    | _ => return .none

def callClosure (d : Deeper) (c : Closure) (given : List Value) (named : List (String × Value)) :
    Run Value := do
  let values ← (Signature.ofParameters c.path c.parameters).bind c.defaults given named
  let scope ← alloc (.scope c.locals values)
  let mark : Mark := ⟨c.file, firstLine c, 0⟩
  if c.isGenerator then
    let store ← alloc (.dict [])
    let failure ← handling (do
      let _ ← leavingCall (within mark (bodyOf d (frameOf c scope (some store)) c.body))
      pure none) fun error => pure (some error)
    let items := (← Evaluation.collectedIn store).reverse.map Prod.fst
    new (.iterator "generator" ⟨items, failure⟩)
  else leavingCall (within mark (bodyOf d (frameOf c scope none) c.body))

def notCallable {α : Type} (v : Value) : Run α := do
  typeError ("'" ++ (← kindOf v) ++ "' object is not callable")

def callStep (d : Deeper) (v : Value) (given : List Value) (named : List (String × Value)) :
    Run Value := do
  match v with
  | .cls (.library name) => Construct.construct d name given named
  | .cls c => Construct.newInstance d c given named
  | .routine name => Routines.call name d given named
  | .bound self name => Routines.callBound self name d given named
  | .aliasOf origin _ => d.call origin given named
  | .form name =>
    if Library.futureNames.contains name || (← kindOf v) == "TypeVar" then notCallable v
    else if Library.specialForms.contains name then typeError ("Cannot instantiate typing." ++ name)
    else
      typeError ("Type " ++ name ++ " cannot be instantiated; use " ++ Text.lower name
        ++ "() instead")
  | .object ref =>
    match ← object ref with
    | .function c => callClosure d c given named
    | .method self f => d.call f (self :: given) named
    | .wrapped .ofStatic f => d.call f given named
    | _ =>
      match ← definedMethod? v "__call__" with
      | some f => d.call f (v :: given) named
      | none => notCallable v
  | v => notCallable v

def tooDeep {α : Type} : Run α := raise "RecursionError" "maximum recursion depth exceeded"

def deep : Nat → Deeper
  | 0 => { call := fun _ _ _ => tooDeep, quoted := fun _ => tooDeep, same := fun _ _ => tooDeep }
  | n + 1 =>
    let d := deep n
    { call := callStep d, quoted := quotedStep d, same := sameStep d }

def depthLimit : Nat := 400

def top : Deeper := deep depthLimit

def runBody (file : String) (module : Nat) (body : List Stmt) : Run Unit := do
  let f : Frame := { file, kind := .module, globals := module, space := module }
  match Stmt.doc? body with
  | some s => f.store "__doc__" (.text s)
  | none => pure ()
  leavingCall do
    let _ ← within ⟨file, 1, 0⟩ (Execution.execBody top f body)

end Interpreter

end Stencil.Script
