import Stencil.Context
import Stencil.Log.Journal
import Stencil.Metric
import Stencil.Report.Failure

/-!
The compiler: takes a context to the class that its source defines. Each compilation writes the
source to a scratch folder of its own, resolves the references, has the backend emit the source into a
new module, and looks the class up there. Metrics count every compilation by how it ended, and the
journal says what happened.
-/

namespace Stencil

open Script

structure Backend where
  /-- The extension of scratch files. -/
  extension : String
  included : Machine → List Reference
  options : Context → Options := Context.options
  emit : Assembly → Builder → Run Emission

namespace Backend

def registeredModules (names : List String) (m : Machine) : List Reference :=
  names.filterMap fun name =>
    match m.modules.get? name with
    | some (.object ref) => some (.module ref)
    | _ => none

/-- Runs sources in the machine; the template classes and the vocabulary of types are always there. -/
def standard : Backend :=
  { extension := "py", included := registeredModules ["kiln.templates", "typing"]
    emit := Emission.emit }

end Backend

/-- Decides which references a context gets, given those that the backend includes. It is code of the
host: it can raise errors, and what it returns need not be references. -/
abbrev Resolver := Context → List Reference → Run (List Supply)

namespace Resolver

def arranging (f : List Reference → List Reference → List Reference) : Resolver :=
  fun context included => return (f included context.references).map .ready

def merged : Resolver := arranging Reference.merge

def nothing : Resolver := arranging fun _ _ => []

def ownOnly : Resolver := arranging fun _ own => own

def includedOnly : Resolver := arranging fun included _ => included

def ownFirst : Resolver := arranging fun included own => own ++ included

def doubled : Resolver := arranging fun included own => included ++ included ++ own ++ own

end Resolver

structure Artifacts where
  source : Option String
  /-- The scratch folder; it stays until its owner removes it. -/
  folder : Option String
  warnings : List Report.Entry := []
  deriving DecidableEq, Repr

def Artifacts.deleteAll (a : Artifacts) (f : Files) : Artifacts × Files :=
  let f := match a.folder with
    | some folder => if folder != "" && f.holds folder then f.removeFolder folder else f
    | none => f
  ({ a with folder := none }, f)

structure Workshop where
  machine : Machine
  registry : Registry := {}
  journal : Log.Journal := {}
  scope : Log.Scope := {}
  /-- The folder for scratch folders that the environment names. -/
  environment : Option String := none
  systemFolder : String := "/tmp"
  /-- How many scratch folders were made. -/
  made : Nat := 0
  /-- How long a compilation takes by the clock outside. -/
  elapsed : Float := 0.0
  /-- What was handed to the backend last. -/
  handed : Option (Assembly × Builder) := none

structure Compiler where
  backend : Backend := Backend.standard
  config : Config := {}
  resolver : Resolver := Resolver.merged
  /-- The namespace of all compiled classes. -/
  space : String := "kiln.dynamic"
  /-- Defines the module of a name that a source is emitted into. -/
  define : String → Run Builder := fun name => Builder.make name space .runAndCollect

namespace Compiler

inductive Failure where
  /-- The source did not compile. -/
  | rejected (report : Report.Failure) (artifacts : Artifacts)
  /-- The module can never be reclaimed. -/
  | uncollectible
  /-- A reference that is of no use. -/
  | refused (refusal : Supply.Refusal)
  /-- A diagnostic that cannot be reported. -/
  | invalidEntry (issues : List Report.Issue)
  /-- The class was looked for in something that holds no names. -/
  | lookup (message : String)
  /-- A folder or file cannot be made. -/
  | system (kind : String)
  | invalidPath
  /-- An error that code raised, and whether it is one of the compiler's own family. -/
  | raised (error : Nat) (own : Bool)
  | exhausted

def Failure.isAnnounced : Failure → Bool
  | rejected _ _ | uncollectible | refused (.unsupported _) => true
  | raised _ own => own
  | _ => false

def collectibleMessage : String := "expected collectible module!"

abbrev Work := ExceptT Failure (StateM Workshop)

structure Product where
  cls : ClassRef
  artifacts : Artifacts

def moduleName (c : Compiler) (context : Context) : String := c.space ++ "." ++ context.className

def isOwn (m : Machine) (error : Nat) : Bool :=
  match ((Run.isA (.object error) (.library Library.compilerError)).run m).1 with
  | .ok own => own
  | .error _ => false

def onMachine {α : Type} (code : Run α) : Work α := do
  let w ← get
  let (result, machine) := code.run.run w.machine
  set { w with machine }
  match result with
  | .ok a => return a
  | .error (.raised error _) => throw (.raised error (isOwn machine error))
  | .error .exhausted => throw .exhausted

def setFiles (f : Files) : Work Unit :=
  modify fun w => { w with machine := { w.machine with files := f } }

def loggerName : String := "kiln.compiler"

def record (level : Int) (message : String) (fields : List (String × Datum)) : Log.Record :=
  { logger := loggerName, level, message, fields := some (fields.map fun (k, v) => (.text k, v)) }

def log (level : Int) (message : String) (fields : List (String × Datum)) : Work Unit :=
  modify fun w =>
    { w with journal := w.journal.log w.scope.current (record level message fields) }

def debugLevel : Int := 10
def infoLevel : Int := 20
def warningLevel : Int := 30
def errorLevel : Int := 40

def folderName (marker : String) (number : Nat) : String :=
  marker ++ "<" ++ toString number ++ ">"

def makeFolder (c : Compiler) : Work String := do
  let w ← get
  let root := c.config.folder w.environment w.systemFolder
  let path := Path.join root (folderName c.config.marker (w.made + 1))
  let files := w.machine.files
  match files.place? path with
  | none => throw (.system (if files.isFile root then "NotADirectoryError" else "FileNotFoundError"))
  | some place =>
    set { w with made := w.made + 1 }
    setFiles (files.makeFolder place)
    return path

def longestName : Nat := 255

def writeSource (path text : String) : Work Unit := do
  let files := (← get).machine.files
  if path.toList.any fun c => c.toNat == 0 then throw .invalidPath
  else if (Path.segments path).any fun s => longestName < s.utf8ByteSize then throw (.system "OSError")
  else
    match files.write? path text with
    | some files => setFiles files
    | none =>
      throw (.system (if files.isFolder path then "IsADirectoryError" else "FileNotFoundError"))

def sourceFile (c : Compiler) (context : Context) (folder : String) : String :=
  Path.normal (Path.join folder (c.moduleName context ++ "." ++ c.backend.extension))

/-- Writes the source of a context to its file in a folder, and returns the path of the file. -/
def store (c : Compiler) (context : Context) (folder : String) : Work String := do
  let path := c.sourceFile context folder
  writeSource path context.source
  log debugLevel "Wrote generated source"
    [("class_name", .text context.className), ("tmp_folder", .text folder)]
  return path

def resolveEach (c : Compiler) (context : Context) : Work (List Dependency) := do
  let included := c.backend.included (← get).machine
  let supplies ← onMachine (c.resolver context included)
  match supplies.mapM (Supply.resolve (← get).machine) with
  | .ok dependencies => return dependencies
  | .error refusal => throw (.refused refusal)

/-- Resolves the references of a context; the scratch folder goes if that fails with an error that the
compiler announces. -/
def resolveAll (c : Compiler) (folder : String) (context : Context) : Work (List Dependency) :=
  tryCatch (c.resolveEach context) fun failure => do
    if failure.isAnnounced then setFiles ((← get).machine.files.removeFolder folder)
    throw failure

def emitInto (c : Compiler) (context : Context) (path : String) (dependencies : List Dependency) :
    Work (Builder × Emission) := do
  let name := c.moduleName context
  log debugLevel ("Resolved " ++ toString dependencies.length ++ " references")
    [("references", .list (dependencies.map fun d => .text d.display))]
  let a : Assembly :=
    { name, dependencies
      sources := [⟨(← get).made, context.source, path⟩]
      options := { c.backend.options context with kind := .library } }
  let b ← onMachine (c.define name)
  modify fun w => { w with handed := some (a, b) }
  return (b, ← onMachine (c.backend.emit a b))

def entriesOf (ds : List Diagnostic) : Work (List Report.Entry) := do
  match ds.mapM Report.Entry.ofDiagnostic with
  | .ok entries => return entries
  | .error issues => throw (.invalidEntry issues)

def warningsIn (entries : List Report.Entry) : Nat := (entries.filter (·.isWarning)).length

def noteWarnings : List Report.Entry → Work Unit
  | [] => pure ()
  | e :: rest => do
    if e.isWarning then
      log debugLevel ("Compiler warning: " ++ e.summary)
        [("error_number", .text e.number), ("line", .int e.line)]
    noteWarnings rest

def recordAll (entries : List Report.Entry) : Work Unit := do
  modify fun w => { w with registry := { w.registry with
    diagnostics := w.registry.diagnostics.add entries.length
    warnings := w.registry.warnings.add (warningsIn entries) } }
  noteWarnings entries

def missingEntry (className path : String) : Report.Entry :=
  ⟨"The compiled source does not define class '" ++ className ++ "'", path, 0, 0,
    Diagnostic.missingType, false⟩

def reject {α : Type} (context : Context) (artifacts : Artifacts) (entries : List Report.Entry) :
    Work α :=
  throw (.rejected ⟨entries, artifacts.source, artifacts.folder, context.template⟩ artifacts)

structure Emitted where
  folder : String
  /-- The file that the source was written to. -/
  path : String
  builder : Builder
  emission : Emission

def conclude (c : Compiler) (context : Context) (r : Emitted) (entries : List Report.Entry) :
    Work Product := do
  let artifacts : Artifacts := { source := some context.source, folder := some r.folder }
  let errors := entries.length - warningsIn entries
  let fields := [("class_name", Datum.text context.className), ("tmp_folder", .text r.folder),
    ("errors", .int errors), ("warnings", .int (entries.length - errors : Nat))]
  if !r.emission.success then
    log warningLevel ("Compilation failed with " ++ toString errors ++ " error(s)") fields
    reject context artifacts entries
  else if r.emission.isUncollectible then
    log errorLevel ("Module " ++ c.moduleName context ++ " was emitted uncollectible") fields
    throw .uncollectible
  else
    let artifacts := { artifacts with warnings := entries }
    match r.builder.typeNamed (← get).machine (c.moduleName context) with
    | .error message => throw (.lookup message)
    | .ok none => reject context artifacts (entries ++ [missingEntry context.className r.path])
    | .ok (some cls) =>
      let shown ← onMachine (Run.pathOf cls)
      log infoLevel ("Compiled " ++ shown) fields
      return ⟨cls, artifacts⟩

def judge (c : Compiler) (context : Context) (r : Emitted) : Work Product := do
  let entries ← entriesOf r.emission.diagnostics
  recordAll entries
  c.conclude context r entries

def toEmission (c : Compiler) (context : Context) : Work Emitted := do
  let folder ← c.makeFolder
  let path ← c.store context folder
  let dependencies ← c.resolveAll folder context
  let emitted ← c.emitInto context path dependencies
  return ⟨folder, path, emitted.1, emitted.2⟩

def carryOut (c : Compiler) (context : Context) : Work Product := do
  c.judge context (← c.toEmission context)

def count (elapsed : Float) (r : Registry) (result : Except Failure Product) : Registry :=
  let r := match result with
    | .ok _ => { r with success := r.success.add 1 }
    | .error f => if f.isAnnounced then { r with failed := r.failed.add 1 } else r
  { r with
    active := r.active.add (-1)
    duration := r.duration.observe elapsed }

/-- Counts a compilation that begins and enters its scope; the token leads out of it again. -/
def enter (c : Compiler) (context : Context) (w : Workshop) : Workshop × Nat :=
  let (scope, token) := w.scope.enter (some (c.moduleName context))
  let registry := { w.registry with
    total := w.registry.total.add 1, active := w.registry.active.add 1 }
  ({ w with handed := none, registry, scope }, token)

def compile (c : Compiler) (context : Context) : StateM Workshop (Except Failure Product) := do
  let (w, token) := c.enter context (← get)
  set w
  let result ← (c.carryOut context).run
  modify fun w => { w with
    scope := (w.scope.exit? token).getD w.scope
    registry := count w.elapsed w.registry result }
  return result

/-- What a template class writes for a model, and the instance that wrote it: the given one, or a new
one. -/
def write (cls : ClassRef) (last : Option Value) (model : Datum) : Run (Value × Value) := do
  let top := Interpreter.top
  let self ← match last with
    | some v => pure v
    | none => top.call (.cls cls) [] []
  let text ← top.call (← Run.getMember top self "run") [← Run.ofDatum model] []
  return (text, self)

end Compiler

end Stencil
