import Stencil.Diagnostic
import Stencil.Script.Program

/-!
Sources: text under the path that reports about it name. The path need not lead anywhere, and a
source without one is reported under a fixed name. What the text reads as depends on nothing else;
the warnings of reading it are issued the first time only.
-/

namespace Stencil

structure Source where
  /-- Tells sources apart that are equal in text and path. -/
  id : Nat
  text : String
  path : String := ""
  deriving DecidableEq, Repr

namespace Source

open Script

def namelessFile : String := "<unknown>"

def file (s : Source) : String := if s.path == "" then namelessFile else s.path

def reading (s : Source) : Except ParseError Tree := (parse s.text).1

def tree? (s : Source) : Option Tree :=
  match s.reading with
  | .ok t => some t
  | .error _ => none

def faultOf (path : String) : ParseError → Diagnostic
  | .nullCharacter => ⟨Diagnostic.syntaxError, .error, ParseError.nullMessage, ⟨path, 0, 0⟩⟩
  | .fault f =>
    ⟨Diagnostic.syntaxError, .error, f.kind.name ++ ": " ++ f.message,
      .ofOneBased path (some f.line) (some f.offset)⟩

def diagnostics (s : Source) : List Diagnostic :=
  match s.reading with
  | .ok _ => []
  | .error e => [faultOf s.path e]

/-- What is wrong with a text that reads and cannot run; the column counts bytes. -/
def misuseOf (path : String) (m : Misuse) : Diagnostic :=
  ⟨Diagnostic.compileError, .error, "SyntaxError: " ++ m.message,
    .ofOneBased path (some m.pos.line) (some (m.pos.byte + 1))⟩

def read (s : Source) : Run (Option Tree) := do
  if (← get).read.contains s.id then return s.tree?
  else
    Run.update fun m => { m with read := s.id :: m.read }
    let _ ← Program.read s.text s.file
    return s.tree?

end Source

end Stencil
