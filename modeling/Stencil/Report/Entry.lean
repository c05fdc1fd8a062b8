import Stencil.Diagnostic

/-!
Entries of a report: one diagnostic each, as it is handed to whoever asked for the compilation.
-/

namespace Stencil.Report

structure Entry where
  text : String
  file : String
  line : Nat
  column : Nat
  number : String
  isWarning : Bool
  deriving DecidableEq, Repr

/-- One line for people: the position counts from one and is left out where no file is named. -/
def Entry.summary (e : Entry) : String :=
  (if e.file = "" then "" else
    e.file ++ "(" ++ toString (e.line + 1) ++ "," ++ toString (e.column + 1) ++ "): ")
    ++ (if e.isWarning then "warning" else "error") ++ " " ++ e.number ++ ": " ++ e.text

inductive Fault where
  | missing
  | notText
  | undecodableText
  | notInteger
  | unreadableInteger
  | oversizedInteger
  | fractional
  | notFinite
  | negative
  | notTruth
  | unreadableTruth
  | fixed
  deriving DecidableEq, Repr

def Fault.name : Fault → String
  | missing => "missing"
  | notText => "string_type"
  | undecodableText => "string_unicode"
  | notInteger => "int_type"
  | unreadableInteger => "int_parsing"
  | oversizedInteger => "int_parsing_size"
  | fractional => "int_from_float"
  | notFinite => "finite_number"
  | negative => "greater_than_equal"
  | notTruth => "bool_type"
  | unreadableTruth => "bool_parsing"
  | fixed => "frozen_instance"

structure Issue where
  field : String
  fault : Fault
  deriving DecidableEq, Repr

def count (i : Int) : Except Fault Nat :=
  if i < 0 then .error .negative else .ok i.toNat

def Issue.named {α : Type} (field : String) : Except Fault α → Except (List Issue) α
  | .ok a => .ok a
  | .error fault => .error [⟨field, fault⟩]

/-- Applies a function whose issues come first to an argument whose issues come after them. -/
def Issue.apply {α β : Type} :
    Except (List Issue) (α → β) → Except (List Issue) α → Except (List Issue) β
  | .ok f, .ok a => .ok (f a)
  | .ok _, .error late => .error late
  | .error early, .ok _ => .error early
  | .error early, .error late => .error (early ++ late)

namespace Entry

def ofDiagnostic (d : Diagnostic) : Except (List Issue) Entry :=
  Issue.apply
    (Issue.apply
      (.ok fun line column =>
        ⟨d.message, d.location.path, line, column, d.id, d.severity != .error⟩)
      (Issue.named "line" (count d.location.line)))
    (Issue.named "column" (count d.location.column))

theorem ofDiagnostic_of_nonneg {d : Diagnostic} (hl : 0 ≤ d.location.line)
    (hc : 0 ≤ d.location.column) :
    ofDiagnostic d = .ok ⟨d.message, d.location.path, d.location.line.toNat,
      d.location.column.toNat, d.id, d.severity != .error⟩ := by
  simp [ofDiagnostic, count, Issue.named, Issue.apply, Int.not_lt.2 hl, Int.not_lt.2 hc]

def assign (_ : Entry) (field : String) : List Issue :=
  [⟨field, .fixed⟩]

end Entry

end Stencil.Report
