import Stencil.Script.Frame
import Stencil.Script.Routine.Service

/-!
Imports: how a name leads to a module in the table, what a relative name is relative to, and what is
taken out of a module. There is nothing to be found outside the table; the texts of the errors say
why.
-/

namespace Stencil.Script.Import

open Run

def fail {α : Type} (kind message : String) (name : Value) : Run α := do
  let error ← alloc (.error (.builtin kind) [.text message] (.ofList [("name", name)]) [])
  throw (.raised error false)

def noModule (name : String) : String := "No module named " ++ Text.quoted name

def notFound {α : Type} (name : String) : Run α :=
  fail "ModuleNotFoundError" (noModule name) (.text name)

def registered? (name : String) : Run (Option Value) := return (← get).modules.get? name

/-- The module of a full name, where all packages that it lies in have to be there too. -/
def find : Nat → String → Run Value
  | 0, name => notFound name
  | depth + 1, name => do
    match ← registered? name with
    | some .none =>
      fail "ModuleNotFoundError" ("import of " ++ name ++ " halted; None in sys.modules")
        (.text name)
    | some v => return v
    | none =>
      let (parent, _) := Library.split name
      if parent == "" then notFound name
      else
        let package ← match ← registered? parent with
          | some v => pure v
          | none => find depth parent
        let isPackage ← match package with
          | .object ref => pure ((← get).attributes ref |>.has "__path__")
          | _ => pure false
        if isPackage then notFound name
        else
          fail "ModuleNotFoundError"
            (noModule name ++ "; " ++ Text.quoted parent ++ " is not a package") (.text name)

def module (name : String) : Run Value := find (name.length + 1) name

def isMissing (error : Nat) (name : String) : Run Bool := do
  match ← object error with
  | .error c _ attrs _ =>
    if ← derives c (.builtin "ModuleNotFoundError") then
      match attrs.get? "name" with
      | some (.text n) => return n == name
      | _ => return false
    else return false
  | _ => return false

def nameOfModule (v : Value) : Run Value := do
  match v with
  | .object ref => return ((← get).attributes ref |>.get? "__name__").getD .none
  | _ => return .none

/-- Makes sure that the names taken from a package are there, as far as they are modules in it. -/
def load (d : Deeper) (package : Value) : List String → Run Unit
  | [] => pure ()
  | name :: rest => do
    match ← lookMember d package name with
    | some _ => pure ()
    | none =>
      match ← nameOfModule package with
      | .text parent =>
        let full := Library.full parent name
        handling (do let _ ← module full) fun error => do
          if ← isMissing error full then pure () else throw (.raised error false)
      | _ => pure ()
    load d package rest

/-- What a module has under a name; a module inside a package is found without that too. -/
def member (d : Deeper) (v : Value) (name : String) : Run Value := do
  match ← lookMember d v name with
  | some found => return found
  | none =>
    let own ← nameOfModule v
    let inner ← match own with
      | .text parent => registered? (Library.full parent name)
      | _ => pure none
    match inner with
    | some found => return found
    | none =>
      let shown := match own with
        | .text n => Text.quoted n
        | _ => "'<unknown module name>'"
      let file ← match v with
        | .object ref => pure ((← get).attributes ref |>.get? "__file__")
        | _ => pure none
      let place := match file with
        | some (.text path) => " (" ++ path ++ ")"
        | _ => " (unknown location)"
      fail "ImportError" ("cannot import name " ++ Text.quoted name ++ " from " ++ shown ++ place) own

def ownValue (f : Frame) (name : String) : Run (Option Value) := Frame.kept f.globals name

def noParent {α : Type} : Run α :=
  raise "ImportError" "attempted relative import with no known parent package"

def package (f : Frame) : Run String := do
  match ← ownValue f "__package__" with
  | some (.text p) => if p == "" then noParent else return p
  | none | some .none =>
    let here := ((← get).calls.head?).getD default
    issue "ImportWarning"
      ("can't resolve package from __spec__ or __package__, "
        ++ "falling back on __name__ and __path__") here.file here.line
    match ← ownValue f "__name__" with
    | some (.text name) =>
      if (← ownValue f "__path__").isSome then return name
      else
        match (Library.split name).1 with
        | "" => noParent
        | parent => return parent
    | some _ => typeError "__name__ must be a string"
    | none => raiseOf "KeyError" [.text "'__name__' not in globals"]
  | some _ => typeError "package must be a string"

def above : Nat → String → Run String
  | 0, package => return package
  | level + 1, package =>
    match (Library.split package).1 with
    | "" => raise "ImportError" "attempted relative import beyond top-level package"
    | parent => above level parent

def fullName (f : Frame) (level : Nat) (name : String) : Run String := do
  match level with
  | 0 => return name
  | level + 1 =>
    let base ← above level (← package f)
    return if name == "" then base else Library.full base name

def source (d : Deeper) (f : Frame) (level : Nat) (name : String) (names : List String) :
    Run Value := do
  let v ← module (← fullName f level name)
  match v with
  | .object ref =>
    if (← get).attributes ref |>.has "__path__" then load d v names
  | _ => pure ()
  return v

def descend (d : Deeper) : Value → List String → Run Value
  | v, [] => return v
  | v, s :: rest => do descend d (← member d v s) rest

def bindModule (d : Deeper) (f : Frame) (name : String) (as : Option String) : Run Unit := do
  let _ ← module name
  let top ← module (Event.topName name)
  match as with
  | none => f.store (Event.topName name) top
  | some as => f.store as (← descend d top ((Text.pieces '.' name).drop 1))

def bindNames (d : Deeper) (f : Frame) (v : Value) : List (String × Option String) → Run Unit
  | [] => pure ()
  | (name, as) :: rest => do
    f.store (as.getD name) (← member d v name)
    bindNames d f v rest

/-- The names that a module offers: those that it lists, or all that do not begin with a mark. -/
def offered (d : Deeper) (v : Value) : Run (List Value) := do
  match ← lookMember d v "__all__" with
  | some (.object ref) =>
    match ← object ref with
    | .set _ _ => typeError "'set' object does not support indexing"
    | .dict _ => typeError "'dict' is not a sequence"
    | _ => itemsOf d (.object ref)
  | some names => itemsOf d names
  | none =>
    match v with
    | .object ref =>
      return (((← get).attributes ref).names.filter fun n => !n.startsWith "_").map .text
    | _ => return []

def bindAll (d : Deeper) (f : Frame) (v : Value) (shown : String) : List Value → Run Unit
  | [] => pure ()
  | .text name :: rest => do
    f.store name (← getMember d v name)
    bindAll d f v shown rest
  | other :: _ => do
    typeError ("Item in " ++ shown ++ ".__all__ must be str, not " ++ (← kindOf other))

def bindOffered (d : Deeper) (f : Frame) (level : Nat) (name : String) : Run Unit := do
  let v ← source d f level name []
  let names ← offered d v
  let shown := match ← nameOfModule v with
    | .text n => n
    | _ => name
  match v with
  | .object ref =>
    if (← get).attributes ref |>.has "__path__" then
      load d v (names.filterMap fun
        | .text n => some n
        | _ => none)
  | _ => pure ()
  bindAll d f v shown names

end Stencil.Script.Import
