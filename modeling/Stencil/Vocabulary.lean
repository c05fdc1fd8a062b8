import Stencil.Text.Quoted

/-!
The closed vocabularies of the library: how severe a diagnostic is, what a compilation produces, how
long a dynamic module lives, and in which form a reference is supplied. Each word is its own name,
and a name outside a vocabulary is refused with the word that was not found.
-/

namespace Stencil

inductive Severity where
  | hidden | info | warning | error
  deriving DecidableEq, Repr

inductive OutputKind where
  | library | console
  deriving DecidableEq, Repr

inductive ModuleAccess where
  | run | runAndCollect
  deriving DecidableEq, Repr

inductive ReferenceKind where
  | module | file | stream | bytes
  deriving DecidableEq, Repr

/-- A vocabulary: its name in messages, its words in order, and the name of each word. -/
structure Vocabulary (α : Type) where
  title : String
  words : List α
  name : α → String

namespace Vocabulary

def word? {α : Type} (v : Vocabulary α) (name : String) : Option α :=
  v.words.find? fun w => v.name w == name

def refusal {α : Type} (v : Vocabulary α) (shown : String) : String :=
  shown ++ " is not a valid " ++ v.title

def names {α : Type} (v : Vocabulary α) : List String :=
  v.words.map v.name

end Vocabulary

def Severity.name : Severity → String
  | hidden => "HIDDEN"
  | info => "INFO"
  | warning => "WARNING"
  | error => "ERROR"

def OutputKind.name : OutputKind → String
  | library => "DYNAMICALLY_LINKED_LIBRARY"
  | console => "CONSOLE_APPLICATION"

def ModuleAccess.name : ModuleAccess → String
  | run => "RUN"
  | runAndCollect => "RUN_AND_COLLECT"

def ReferenceKind.name : ReferenceKind → String
  | module => "MODULE"
  | file => "FILE"
  | stream => "STREAM"
  | bytes => "BYTES"

def Severity.vocabulary : Vocabulary Severity :=
  ⟨"DiagnosticSeverity", [.hidden, .info, .warning, .error], Severity.name⟩

def OutputKind.vocabulary : Vocabulary OutputKind :=
  ⟨"OutputKind", [.library, .console], OutputKind.name⟩

def ModuleAccess.vocabulary : Vocabulary ModuleAccess :=
  ⟨"ModuleAccess", [.run, .runAndCollect], ModuleAccess.name⟩

def ReferenceKind.vocabulary : Vocabulary ReferenceKind :=
  ⟨"ReferenceKind", [.module, .file, .stream, .bytes], ReferenceKind.name⟩

end Stencil
