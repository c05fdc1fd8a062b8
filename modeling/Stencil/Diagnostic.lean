import Stencil.Vocabulary

/-!
Diagnostics: what the stages of a compilation report, and where. Lines and columns count from zero;
positions that count from one are moved down and never below zero.
-/

namespace Stencil

structure Location where
  path : String := ""
  line : Int := 0
  column : Int := 0
  deriving DecidableEq, Repr

def fromOne : Option Int → Int
  | none => 0
  | some n => max (n - 1) 0

theorem fromOne_nonneg (n : Option Int) : 0 ≤ fromOne n := by
  cases n with
  | none => exact Int.le_refl 0
  | some n => exact Int.le_max_right (n - 1) 0

namespace Location

def ofOneBased (path : String) (line column : Option Int) : Location :=
  ⟨path, fromOne line, fromOne column⟩

theorem ofOneBased_nonneg (path : String) (line column : Option Int) :
    0 ≤ (ofOneBased path line column).line ∧ 0 ≤ (ofOneBased path line column).column :=
  ⟨fromOne_nonneg line, fromOne_nonneg column⟩

end Location

structure Diagnostic where
  id : String
  severity : Severity
  message : String
  location : Location := ⟨"", 0, 0⟩
  deriving DecidableEq, Repr

namespace Diagnostic

def isError (d : Diagnostic) : Bool :=
  d.severity == .error

abbrev unresolvedReference := "KL0006"
abbrev missingType := "KL0103"
abbrev unresolvedNamespace := "KL0246"
abbrev syntaxError := "KL1001"
abbrev compileError := "KL1002"
abbrev runtimeError := "KL2001"
abbrev issuedWarning := "KL4001"

end Diagnostic

end Stencil
