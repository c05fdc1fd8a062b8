import Stencil.Reference
import Stencil.Script.Modules
import Stencil.Script.Program

/-!
Dependencies: what references are resolved to, and how they are loaded. A module that is carried is
taken as it is, a name leads to the table of modules, and a location to a file; a file that is
registered under the name already is not run again, and a file that is run is not registered.
-/

namespace Stencil

structure Dependency where
  name : Option String := none
  location : Option String := none
  /-- The module that is carried along. -/
  module : Option Nat := none
  deriving DecidableEq, Repr

namespace Dependency

open Script Run

def textAttribute? (m : Machine) (module : Nat) (name : String) : Option String :=
  match (m.attributes module).get? name with
  | some (.text s) => some s
  | _ => none

def ofModule (m : Machine) (module : Nat) : Dependency :=
  { name := textAttribute? m module "__name__", location := textAttribute? m module "__file__"
    module := some module }

def resolve (m : Machine) : Reference → Except Reference.Unsupported Dependency
  | .module object => .ok (ofModule m object)
  | .file path => .ok { location := some path }
  | .stream _ => .error .streams
  | .bytes _ => .error .buffers

/-- What a dependency is called in messages: the first of location and name that says anything. -/
def display (d : Dependency) : String :=
  let filled := fun (s : Option String) => s.filter (· != "")
  ((filled d.location).orElse fun _ => filled d.name).getD "<unnamed>"

def moduleOf (v : Value) : Run Nat := do
  match v with
  | .object ref => return ref
  | v => alloc (.foreign (← kindOf v) "")

def nameOf (module : Nat) : Run String := do
  match ← getMember Interpreter.top (.object module) "__name__" with
  | .text s => return s
  | v => raise "AttributeError" ("'" ++ (← kindOf v) ++ "' object has no attribute 'partition'")

def importNamed (name : String) : Run Nat := do
  if name.startsWith "." then
    typeError ("the 'package' argument is required to perform a relative import for "
      ++ Text.quoted name)
  else if name == "" then valueError "Empty module name"
  else moduleOf (← Import.module name)

def loadNamed (name : Option String) : Run Nat := do
  match name with
  | none => raise "AttributeError" "'NoneType' object has no attribute 'startswith'"
  | some name =>
    match ← Import.registered? name with
    | some (.object ref) => return ref
    | _ => importNamed name

def packageFile : String := "__init__.py"

def nameForFile (path : String) : String :=
  if Path.name path == packageFile then Path.name (Path.parent path) else Path.stem path

def foldUp : List String → List String → List String
  | done, [] => done.reverse
  | done, s :: rest => if s == ".." then foldUp done.tail rest else foldUp (s :: done) rest

def placeOf (working path : String) : List String :=
  foldUp [] (Path.segments (Path.join working path))

def isHollow (m : Machine) : Value → Bool
  | .none | .bool false | .text "" => true
  | .int i => i == 0
  | .float x => x == 0.0
  | .bytes bs => bs.isEmpty
  | .tuple items => items.isEmpty
  | .object ref =>
    match m.heap[ref]? with
    | some (.list []) | some (.set _ []) | some (.dict []) => true
    | _ => false
  | _ => false

/-- The path that a value spells, if it says anything; what is no text spells none. -/
def spelledPath? (v : Value) : Run (Option String) := do
  if isHollow (← get) v then return none
  else
    match v with
    | .text file =>
      if file.toList.any fun c => c.toNat == 0 then valueError "embedded null byte"
      else return some file
    | .bytes _ =>
      typeError ("argument should be a str object or an os.PathLike object returning str, "
        ++ "not <class 'bytes'>")
    | v => typeError ("expected str, bytes or os.PathLike object, not " ++ (← kindOf v))

/-- The module that is registered under a name, if it comes from the given file. -/
def existing? (name path : String) : Run (Option Nat) := do
  match ← Import.registered? name with
  | some (.object ref) =>
    match (← get).attributes ref |>.get? "__file__" with
    | some v =>
      match ← spelledPath? v with
      | some file =>
        let working := (← get).files.working
        return if placeOf working file == placeOf working path then some ref else none
      | none => return none
    | none => return none
  | _ => return none

def fileAttributes (name file : String) (search : Option Value) : Bindings Value :=
  let package := if search.isSome then name else (Library.split name).1
  let attrs := Bindings.ofList
    [("__name__", Value.text name), ("__doc__", .none), ("__package__", .text package),
     ("__loader__", .none), ("__spec__", .none)]
  (Machine.withValue attrs "__path__" search).set "__file__" (.text file)

def runFile (name file text : String) (search : Option String) : Run Nat := do
  let search ← match search with
    | none => pure none
    | some folder => do pure (some (← newList [.text folder]))
  let module ← alloc (.module (fileAttributes name file search))
  Program.runText text file module
  return module

/-- Why a file that is no source file cannot be loaded. Compiled code begins with a number that no text
begins with. -/
def refusal (location path name text : String) : String :=
  if path.endsWith ".pyc" then
    let start := text.toUTF8.data.toList.take 4
    "bad magic number in " ++ Text.quoted name ++ ": " ++ Text.quotedBytes start
  else "No loader for metadata file '" ++ location ++ "'"

/-- Loads the module at a location, which is a file or a folder with a package file. -/
def loadFile (location : String) (name : Option String) : Run Nat := do
  let files := (← get).files
  let place := Path.normal location
  let isPackage := files.isFolder place
  let path := if isPackage then Path.normal (Path.join place packageFile) else place
  match files.text? path with
  | none =>
    raise "FileNotFoundError" ("Metadata file '" ++ location ++ "' could not be found")
  | some text =>
    let name := match name with
      | some n => if n == "" then nameForFile path else n
      | none => nameForFile path
    match ← existing? name path with
    | some module => return module
    | none =>
      if path.endsWith ".py" then
        runFile name (Path.join files.working path) text (if isPackage then some place else none)
      else raise "ImportError" (refusal location path name text)

def load (d : Dependency) : Run Nat := do
  match d.module, d.location with
  | some module, _ => return module
  | none, none => loadNamed d.name
  | none, some location => loadFile location d.name

/-- The name under which a loaded module is visible, and what it is bound to: a registered module
shows the package at the top, any other its own last name. -/
def binding (module : Nat) : Run (String × Nat) := do
  let name ← nameOf module
  match ← Import.registered? name with
  | some (.object ref) =>
    if ref = module then
      let top := Event.topName name
      match ← Import.registered? top with
      | some v => return (top, ← moduleOf v)
      | none => raiseOf "KeyError" [.text top]
    else return ((Library.split name).2, module)
  | _ => return ((Library.split name).2, module)

structure Loaded where
  module : Nat
  /-- The name under which the module is visible, and what it is bound to. -/
  binding : String × Nat
  /-- The names that are in the table of modules since. -/
  registered : List String

def loadFully (d : Dependency) : Run Loaded := do
  let before := (← get).modules.names
  let module ← d.load
  let binding ← binding module
  return ⟨module, binding, (← get).modules.names.filter fun n => !before.contains n⟩

/-- The values that a module has under the names it offers; it is asked for each of them twice. -/
def publicValues (module : Value) : List Value → Run (Bindings Value)
  | [] => return {}
  | name :: rest => do
    let n ← Basic.attributeName name
    match ← lookMember Interpreter.top module n with
    | some _ =>
      let v ← getMember Interpreter.top module n
      let others ← publicValues module rest
      return ⟨(n, v) :: others.entries⟩
    | none => publicValues module rest

/-- The names that a module offers: those it lists, or all that do not begin with a mark. -/
def offered (module : Nat) : Run (List Value) := do
  match ← lookMember Interpreter.top (.object module) "__all__" with
  | none | some .none =>
    return (((← get).attributes module).names.filter fun n => !n.startsWith "_").map .text
  | some names => itemsOf Interpreter.top names

def publicNames (module : Nat) : Run (Bindings Value) := do
  let entries ← publicValues (.object module) (← offered module)
  return .ofList entries.entries

end Dependency

end Stencil
