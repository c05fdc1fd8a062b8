import Stencil.Script.Interpreter
import Stencil.Script.Statement

/-!
Programs: text that was read, checked and made ready to run. A level of optimisation leaves out
assertions, and a higher one the texts that document definitions; annotations that are not wanted yet
are left out too.
-/

namespace Stencil.Script

structure Trimming where
  assertions : Bool := false
  documentation : Bool := false
  annotations : Bool := false

namespace Trimming

def withoutDoc (t : Trimming) : List Stmt → List Stmt
  | s :: rest =>
    if t.documentation && (Stmt.doc? [s]).isSome then .pass s.pos :: rest else s :: rest
  | [] => []

def annotation (t : Trimming) (e : Expr) : Expr :=
  if t.annotations then .literal e.pos .none else e

def parameter (t : Trimming) : Parameter → Parameter
  | .parameter pos kind name a default => .parameter pos kind name (a.map t.annotation) default

mutual

def stmt (t : Trimming) : Stmt → Stmt
  | .assert pos test message => if t.assertions then .pass pos else .assert pos test message
  | .annotate pos target a value bare => .annotate pos target (t.annotation a) value bare
  | .branch pos test yes no => .branch pos test (stmts t yes) (stmts t no)
  | .whileLoop pos test body otherwise => .whileLoop pos test (stmts t body) (stmts t otherwise)
  | .forLoop pos target source body otherwise =>
    .forLoop pos target source (stmts t body) (stmts t otherwise)
  | .attempt pos body handlers otherwise final =>
    .attempt pos (stmts t body) (handlersIn t handlers) (stmts t otherwise) (stmts t final)
  | .within pos items body => .within pos items (stmts t body)
  | .function pos decorators name ps result body =>
    .function pos decorators name (ps.map t.parameter) (result.map t.annotation)
      (t.withoutDoc (stmts t body))
  | .cls pos decorators name args body =>
    .cls pos decorators name args (t.withoutDoc (stmts t body))
  | s => s

def stmts (t : Trimming) : List Stmt → List Stmt
  | [] => []
  | s :: rest => stmt t s :: stmts t rest

def handlersIn (t : Trimming) : List Handler → List Handler
  | [] => []
  | .handler pos kinds name body :: rest =>
    .handler pos kinds name (stmts t body) :: handlersIn t rest

end

def postponesAnnotations (body : List Stmt) : Bool :=
  body.any fun
    | .importNames _ 0 module names => module == Event.future && names.any (·.1 == "annotations")
    | _ => false

def ofLevel (level : Int) (body : List Stmt) : Trimming :=
  { assertions := 1 ≤ level, documentation := 2 ≤ level, annotations := postponesAnnotations body }

end Trimming

structure Program where
  file : String
  body : List Stmt

namespace Program

open Run

def allowsLevel (level : Int) : Bool := -1 ≤ level && level ≤ 2

def issueAll (category file : String) : List (Nat × String) → Run Unit
  | [] => pure ()
  | (line, text) :: rest => do
    issue category text file line
    issueAll category file rest

def ofTree (t : Tree) (file : String) (level : Int) : Run (Except Misuse Program) := do
  if allowsLevel level then
    let v := t.check (1 ≤ level)
    issueAll "SyntaxWarning" file v.warnings
    match v.fault with
    | some misuse => return .error misuse
    | none =>
      let trimming := Trimming.ofLevel level t.body
      return .ok ⟨file, trimming.withoutDoc (trimming.stmts t.body)⟩
  else valueError "compile(): invalid optimize value"

def read (text file : String) : Run (Except ParseError Tree) := do
  let (result, warnings) := parse text
  issueAll "DeprecationWarning" file (warnings.map fun w => (w.line, w.text))
  return result

def run (p : Program) (module : Nat) : Run Unit := do
  let attrs := (← get).attributes module
  if !attrs.has "__builtins__" then
    match (← get).modules.get? "builtins" with
    | some (.object ref) => putAttribute module "__builtins__" (← new (.attributesOf ref))
    | _ => pure ()
  Interpreter.runBody p.file module p.body

def refuse {α : Type} (kind message file : String) (line : Int) : Run α := do
  let attrs := Bindings.ofList [("msg", Value.text message), ("filename", .text file),
    ("lineno", .int line)]
  let error ← alloc (.error (.builtin kind) [.text message] attrs [])
  throw (.raised error false)

def runText (text file : String) (module : Nat) : Run Unit := do
  let text := if text.startsWith "\ufeff" then String.ofList (text.toList.drop 1) else text
  match ← read text file with
  | .error .nullCharacter => valueError ParseError.nullMessage
  | .error (.fault f) => refuse f.kind.name f.message file f.line
  | .ok tree =>
    match ← ofTree tree file (-1) with
    | .error misuse => refuse "SyntaxError" misuse.message file misuse.pos.line
    | .ok p => p.run module

end Program

end Stencil.Script
