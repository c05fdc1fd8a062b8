import Stencil.Script.Check
import Stencil.Script.Member

/-!
Frames: a body of code that is being carried out, and what names mean in it. A function keeps its
names in a scope of its own and sees the scopes of the functions around it; a class body and a module
keep them in the class and in the module itself. What is found nowhere is looked for in the module
and then among the names that are known everywhere.
-/

namespace Stencil.Script

structure Frame where
  file : String
  kind : ScopeKind
  /-- The module whose names are global. -/
  globals : Nat
  /-- The object that keeps the names of this body. -/
  space : Nat
  /-- The names that belong to this body. -/
  locals : List String := []
  globalNames : List String := []
  /-- The scopes of the functions around it, the innermost first. -/
  scopes : List Nat := []
  /-- What stands before the name of a definition in this body in its path. -/
  path : String := ""
  /-- The class in whose body the function stands, and the first parameter of the function. -/
  owner : Option ClassRef := none
  subject : Option String := none
  /-- The list of what a generator has yielded. -/
  yielded : Option Nat := none

namespace Frame

open Run

def mark (f : Frame) (p : Pos) : Mark := ⟨f.file, p.line, p.byte⟩

def holding {α : Type} (f : Frame) (p : Pos) (step : Run α) : Run α := do
  standAt (f.mark p)
  placing (f.mark p) step

def kept (ref : Nat) (name : String) : Run (Option Value) := do
  match ← object ref with
  | .module attrs | .scope _ attrs => return attrs.get? name
  | .cls c => return c.attributes.get? name
  | _ => return none

def scopeOf? (name : String) : List Nat → Run (Option Nat)
  | [] => return none
  | ref :: rest => do
    match ← object ref with
    | .scope locals _ => if locals.contains name then return some ref else scopeOf? name rest
    | _ => scopeOf? name rest

def undefined {α : Type} (name : String) : Run α :=
  raise "NameError" ("name '" ++ name ++ "' is not defined")

def unset {α : Type} (name : String) : Run α :=
  raise "UnboundLocalError" ("cannot access local variable '" ++ name
    ++ "' where it is not associated with a value")

def unsetAround {α : Type} (name : String) : Run α :=
  raise "NameError" ("cannot access free variable '" ++ name
    ++ "' where it is not associated with a value in enclosing scope")

def loadGlobal (f : Frame) (name : String) : Run Value := do
  match ← kept f.globals name with
  | some v => return v
  | none =>
    match Library.builtinValues.lookup name with
    | some v => return v
    | none => undefined name

def loadOuter (f : Frame) (name : String) : Run Value := do
  if f.globalNames.contains name then f.loadGlobal name
  else
    match ← scopeOf? name f.scopes with
    | some ref =>
      match ← kept ref name with
      | some v => return v
      | none => unsetAround name
    | none =>
      match name, f.owner with
      | "__class__", some c => return .cls c
      | _, _ => f.loadGlobal name

def load (f : Frame) (name : String) : Run Value := do
  match f.kind with
  | .module => f.loadGlobal name
  | .cls =>
    match ← kept f.space name with
    | some v => return v
    | none => if f.locals.contains name then f.loadGlobal name else f.loadOuter name
  | .function =>
    if f.locals.contains name then
      match ← kept f.space name with
      | some v => return v
      | none => unset name
    else f.loadOuter name

def home (f : Frame) (name : String) : Run Nat := do
  if f.locals.contains name then return f.space
  else if f.globalNames.contains name then return f.globals
  else
    match ← scopeOf? name f.scopes with
    | some ref => return ref
    | none => return f.space

def store (f : Frame) (name : String) (value : Value) : Run Unit := do
  putAttribute (← f.home name) name value

def delete (f : Frame) (name : String) : Run Unit := do
  let ref ← f.home name
  match ← kept ref name with
  | some _ => dropAttribute ref name
  | none =>
    if ref == f.globals || f.kind == .cls then undefined name
    else if ref == f.space then unset name
    else unsetAround name

end Frame

end Stencil.Script
