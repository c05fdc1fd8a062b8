import Stencil.Dependency
import Stencil.Source
import Stencil.Text.Column

/-!
Emissions: a unit of sources, dependencies and options is carried out in a module of its own. The
stages follow one another, and each reports what it found: dependencies are bound, namespaces are
taken in, sources are checked, and what they say is run if nothing was wrong before. After each stage
the warnings about the unit's own files are put into words for the report; all others are issued once
more when the last stage is over. Both can run code: that of the messages.
-/

namespace Stencil

open Script

structure Options where
  kind : OutputKind := .library
  /-- The namespaces whose public names are taken in. -/
  usings : List String := []
  optimize : Int := -1
  deriving DecidableEq, Repr

structure Assembly where
  name : String
  sources : List Source := []
  dependencies : List Dependency := []
  options : Options := {}
  deriving DecidableEq, Repr

structure Builder where
  name : String
  space : String
  access : ModuleAccess
  module : Nat
  deriving DecidableEq, Repr

namespace Builder

def define (m : Machine) (name space : String) (access : ModuleAccess) : Machine × Builder :=
  let attrs := Bindings.ofList
    [("__name__", Value.text space), ("__doc__", .none), ("__package__", .none),
     ("__loader__", .none), ("__spec__", .none)]
  let (m, module) := m.push (.module attrs)
  let m := match access with
    | .run => { m with modules := m.modules.set name (.object module) }
    | .runAndCollect => m
  (m, ⟨name, space, access, module⟩)

theorem size_le_define (name space : String) (access : ModuleAccess) (m : Machine) :
    m.heap.size ≤ (define m name space access).1.heap.size := by
  cases access <;> simp [define, Machine.push]

def make (name space : String) (access : ModuleAccess) : Run Builder :=
  Run.change (fun m => let (m, b) := define m name space access; (b, m)) (size_le_define name space access)

def isCollectible (m : Machine) (b : Builder) : Bool :=
  match m.modules.get? b.name with
  | some (.object ref) => ref != b.module
  | _ => true

def nativeWarnings : List String := ["warnings.warn", "warnings.warn_explicit"]

def heldByRoutine? (name : String) : Option (Bindings Value) :=
  if name.startsWith "kiln." || Run.isSourceRoutine name
      || name.startsWith "warnings." && !nativeWarnings.contains name then some {}
  else none

def heldByLibrary (name : String) : Bindings Value :=
  .ofList ((Library.methods name).map fun method => (method, .routine (Library.full name method)))

def attributesOf? (m : Machine) (ref : Nat) : Option (Bindings Value) :=
  match m.heap[ref]? with
  | some (.module attrs) | some (.error _ _ attrs _) => some attrs
  | some (.instance c attrs) => if c = .builtin "object" then none else some attrs
  | some (.cls c) => some c.attributes
  | some (.function f) => some f.attributes
  | some (.method _ (.object r)) =>
    match m.heap[r]? with
    | some (.function f) => some f.attributes
    | _ => none
  | some (.method _ (.routine name)) => heldByRoutine? name
  | some (.wrapped .ofStatic _) | some (.wrapped .ofClass _) => some {}
  | some (.foreign kind _) => if kind = "TypeVar" ∨ kind = "ParamSpec" then some {} else none
  | _ => none

def heldBy? (m : Machine) : Value → Option (Bindings Value)
  | .object ref | .cls (.defined ref) => attributesOf? m ref
  | .cls (.library name) => some (heldByLibrary name)
  | .routine name | .bound _ name => heldByRoutine? name
  | .form name => if Library.specialForms.contains name then none else some {}
  | .aliasOf (.form "|") _ => none
  | .aliasOf (.cls (.library name)) _ =>
    if name.startsWith "builtins." then some (heldByLibrary name) else some {}
  | .aliasOf _ _ => some {}
  | _ => none

/-- Follows names from a value; a value that keeps no attributes ends the way with a failure. -/
def follow (m : Machine) : Value → List String → Except String (Option Value)
  | v, [] => .ok (some v)
  | v, name :: rest =>
    match heldBy? m v with
    | none => .error "vars() argument must have __dict__ attribute"
    | some attrs =>
      match attrs.get? name with
      | none | some .none => .ok none
      | some found => follow m found rest

/-- The class of a qualified name, which has to begin with the module's namespace. -/
def typeNamed (m : Machine) (b : Builder) (qualified : String) : Except String (Option ClassRef) :=
  let start := (b.space ++ ".").toList
  if start.isPrefixOf qualified.toList then
    let rest := String.ofList (qualified.toList.drop start.length)
    match follow m (.object b.module) (Text.pieces '.' rest) with
    | .error message => .error message
    | .ok (some (.cls c)) => .ok (some c)
    | .ok _ => .ok none
  else .ok none

end Builder

structure Emission where
  success : Bool
  diagnostics : List Diagnostic := []
  isUncollectible : Bool := false
  deriving DecidableEq, Repr

namespace Emission

open Run

structure Progress where
  diagnostics : List Diagnostic := []
  /-- Warnings that are not about the unit. -/
  foreign : List Issued := []

def Progress.report (p : Progress) (ds : List Diagnostic) : Progress :=
  { p with diagnostics := p.diagnostics ++ ds }

def Progress.failed (p : Progress) : Bool := p.diagnostics.any Diagnostic.isError

def ownFiles (a : Assembly) : List String :=
  a.sources.map Source.file ++ a.dependencies.flatMap fun d =>
    match d.location with
    | none | some "" => []
    | some location => [location, Path.join location Dependency.packageFile]

/-- A warning in words: its category and its message, which can say how it is shown. -/
def wording (w : Issued) : Run String := do
  return (← nameOf w.kind) ++ ": " ++ (← Basic.laidOut Interpreter.top w.message "")

def diagnosticOf (w : Issued) (text : String) : Diagnostic :=
  ⟨Diagnostic.issuedWarning, .warning, text, .ofOneBased w.file (some w.line) none⟩

def wordEach : List Issued → Progress → Run Progress
  | [], p => return p
  | w :: rest, p => do
    let text ← wording w
    wordEach rest (p.report [diagnosticOf w text])

def isOwn (own : List String) (w : Issued) : Bool := own.contains w.file

def Progress.setAside (p : Progress) (ws : List Issued) : Progress :=
  { p with foreign := p.foreign ++ ws }

/-- Moves the warnings that were issued since the last time into the progress, and then those that
were issued while these were put into words. -/
def drain (own : List String) : Nat → Progress → Capture Progress
  | 0, _ => Capture.stop .exhausted
  | fuel + 1, p => do
    match ← Capture.taken with
    | [] => return p
    | ws => do
      let p ← wordEach (ws.filter (isOwn own)) (p.setAside (ws.filter (!isOwn own ·)))
      drain own fuel p

def handOn : List Issued → Run Unit
  | [] => pure ()
  | w :: rest => do
    Service.again Interpreter.top w
    handOn rest

def describe (error : Nat) : Run String := do
  let v := Value.object error
  return (← kindOf v) ++ ": " ++ (← Basic.laidOut Interpreter.top v "")

def isReported (error : Nat) : Run Bool := do
  let c ← classOf (.object error)
  return (← derives c (.builtin "Exception")) || (← derives c (.builtin "SystemExit"))

def reporting {α : Type} (code : Run α) : Run (Except Nat α) :=
  tryCatch (Except.ok <$> code) fun
    | .raised error placed => do
      if ← isReported error then return .error error else throw (.raised error placed)
    | stop => throw stop

/-- Goes through items: what is wrong with one of them is reported, and the others go on. -/
def eachOf {ι α : Type} (step : ι → Run (Except Diagnostic α)) :
    List ι → Progress → Run (Progress × List α)
  | [], p => return (p, [])
  | i :: rest, p => do
    match ← step i with
    | .error d => eachOf step rest (p.report [d])
    | .ok a =>
      let (p, others) ← eachOf step rest p
      return (p, a :: others)

def untilFault {ι : Type} (step : ι → Run (Except Diagnostic Unit)) :
    List ι → Progress → Run Progress
  | [], p => return p
  | i :: rest, p => do
    match ← step i with
    | .error d => return p.report [d]
    | .ok _ => untilFault step rest p

def unloadable (d : Dependency) (what : String) : Diagnostic :=
  ⟨Diagnostic.unresolvedReference, .error,
    "Metadata reference '" ++ d.display ++ "' could not be loaded: " ++ what, ⟨"", 0, 0⟩⟩

def bindOne (module : Nat) (d : Dependency) : Run (Except Diagnostic Nat) := do
  match ← reporting d.load with
  | .error error => return .error (unloadable d (← describe error))
  | .ok loaded =>
    let (name, bound) ← Dependency.binding loaded
    putAttribute module name (.object bound)
    return .ok loaded

def unknownNamespace (name : String) : Diagnostic :=
  ⟨Diagnostic.unresolvedNamespace, .error,
    "The namespace '" ++ name ++ "' could not be found (are you missing a reference?)", ⟨"", 0, 0⟩⟩

def named? (name : String) : List Nat → Run (Option Nat)
  | [] => return none
  | m :: rest => do
    match ← getMember Interpreter.top (.object m) "__name__" with
    | .text n => if n == name then return some m else named? name rest
    | _ => named? name rest

def sharesTop (top : String) : List Nat → Run Bool
  | [] => return false
  | m :: rest => do
    if Event.topName (← Dependency.nameOf m) == top then return true else sharesTop top rest

/-- The module of a namespace: a dependency of that name, or one that its package leads to. -/
def findNamespace (name : String) (loaded : List Nat) : Run (Option Nat) := do
  match ← named? name loaded with
  | some m => return some m
  | none =>
    if ← sharesTop (Event.topName name) loaded then
      handling (some <$> Dependency.importNamed name) fun error => do
        if ← derives (← classOf (.object error)) (.builtin "ImportError") then return none
        else throw (.raised error false)
    else return none

def takeIn (module : Nat) : List (String × Value) → Run Unit
  | [] => pure ()
  | (name, v) :: rest => do
    putAttribute module name v
    takeIn module rest

def useOne (module : Nat) (loaded : List Nat) (name : String) : Run (Except Diagnostic Unit) := do
  match ← findNamespace name loaded with
  | none => return .error (unknownNamespace name)
  | some found =>
    takeIn module (← Dependency.publicNames found).entries
    return .ok ()

def checkOne (level : Int) (s : Source) : Run (Except Diagnostic Program) := do
  let _ ← s.read
  match s.reading with
  | .error e => return .error (Source.faultOf s.path e)
  | .ok tree =>
    match ← Program.ofTree tree s.file level with
    | .error misuse => return .error (Source.misuseOf s.path misuse)
    | .ok program => return .ok program

def sourceIn? (sources : List Source) (file : String) : Option Source :=
  sources.reverse.find? fun s => s.file == file

/-- Where an error came from: the innermost line that is in one of the sources. -/
def locationOf (sources : List Source) (trace : List Mark) : Location :=
  match trace.findSome? fun mark => (sourceIn? sources mark.file).map fun s => (s, mark) with
  | none => ⟨"", 0, 0⟩
  | some (s, mark) =>
    ⟨mark.file, (mark.line - 1 : Nat), (Text.charColumn s.text (mark.line - 1) mark.byte : Nat)⟩

def traceOf (error : Nat) : Run (List Mark) := do
  match ← object error with
  | .error _ _ _ trace => return trace
  | _ => return []

def crash (what : String) (l : Location) : Diagnostic :=
  ⟨Diagnostic.runtimeError, .error, what, l⟩

def runOne (sources : List Source) (module : Nat) (p : Program) : Run (Except Diagnostic Unit) := do
  match ← reporting (p.run module) with
  | .ok _ => return .ok ()
  | .error error =>
    let location := locationOf sources (← traceOf error)
    return .error (crash (← describe error) location)

def label (a : Assembly) (module : Nat) : Run Unit := do
  match a.options.kind with
  | .console => putAttribute module "__name__" (.text "__main__")
  | .library => pure ()
  match a.sources with
  | s :: _ => putAttribute module "__file__" (.text s.path)
  | [] => pure ()

/-- The stages, one after the other: dependencies are bound, namespaces are taken in, sources are
checked, and what they say is run if nothing was wrong before. -/
def stages (a : Assembly) (module : Nat) : Capture Progress := do
  let own := ownFiles a
  let (p, loaded) ← eachOf (bindOne module) a.dependencies {}
  let p ← drain own stepLimit p
  let (p, _) ← eachOf (useOne module loaded) a.options.usings p
  let p ← drain own stepLimit p
  let (p, programs) ← eachOf (checkOne a.options.optimize) a.sources p
  let p ← drain own stepLimit p
  if p.failed then return p
  else
    let p ← untilFault (runOne a.sources module) programs p
    drain own stepLimit p

def emit (a : Assembly) (b : Builder) : Run Emission := do
  label a b.module
  let p ← capturing (stages a b.module)
  handOn p.foreign
  let success := !p.failed
  return ⟨success, p.diagnostics, success && !b.isCollectible (← get)⟩

end Emission

end Stencil
