import Stencil.Compiler
import Stencil.Proofs.Text.Lines
import Stencil.Report.Failure

/-!
Excerpts of failure reports. The report counts wide lines and its entries count source lines: the line
under an entry is the one that it names as long as no wide break stands before its end, a part of it if
there is one inside of it, and a part of an earlier line if there is one before it (`under_cases`).
-/

namespace Stencil

namespace Text

theorem trimRight_append_of_blank {a b : List Char} (h : ∀ c ∈ b, isBlank c = true) :
    trimRight (a ++ b) = trimRight a := by
  have nothing : b.reverse.dropWhile isBlank = [] := by simpa using h
  rw [trimRight, List.reverse_append, List.dropWhile_append, nothing, trimRight]
  rfl

theorem trimRight_append_of_not_blank {a b : List Char} (h : ¬∀ c ∈ b, isBlank c = true) :
    trimRight (a ++ b) = a ++ trimRight b := by
  have some : b.reverse.dropWhile isBlank ≠ [] := by simpa using h
  rw [trimRight, List.reverse_append, List.dropWhile_append, if_neg (by simpa using some), trimRight]
  simp

theorem trimRight_eq_nil_iff {s : List Char} : trimRight s = [] ↔ ∀ c ∈ s, isBlank c = true := by
  simp [trimRight]

theorem length_trimRight_le (s : List Char) : (trimRight s).length ≤ s.length := by
  have shorter := (List.dropWhile_sublist isBlank (l := s.reverse)).length_le
  rwa [List.length_reverse, ← List.length_reverse] at shorter

theorem trimRight_firstPart_eq_iff {line : List Char} :
    trimRight (firstPart line) = trimRight line ↔
      ∀ c ∈ line.dropWhile (fun c => !isWideBreak c), isBlank c = true := by
  have whole : firstPart line ++ line.dropWhile (fun c => !isWideBreak c) = line :=
    List.takeWhile_append_dropWhile
  generalize firstPart line = first, line.dropWhile (fun c => !isWideBreak c) = rest at whole ⊢
  rw [← whole]
  refine ⟨fun same => ?_, fun blank => (trimRight_append_of_blank blank).symm⟩
  by_contra more
  rw [trimRight_append_of_not_blank more] at same
  have length := congrArg List.length same
  have shorter := length_trimRight_le first
  rw [List.length_append] at length
  exact more (trimRight_eq_nil_iff.1 (List.eq_nil_of_length_eq_zero (by omega)))

end Text

def Compiler.report? : Except Compiler.Failure Compiler.Product → Option Report.Failure
  | .error (.rejected report _) => some report
  | _ => none

namespace Report.Failure

open Text

def under (f : Failure) (e : Entry) : List String := excerpt (wideLines (f.source.getD "")) e

def shown (line : List Char) : String := "     | " ++ String.ofList (trimRight line)

theorem shown_inj {x y : List Char} : shown x = shown y ↔ trimRight x = trimRight y := by
  simp [shown, String.ofList_inj]

theorem under_of_some {f : Failure} {e : Entry} {part : List Char} (named : e.file ≠ "")
    (h : (wideLines (f.source.getD ""))[e.line]? = some part) : f.under e = [shown part] := by
  rw [under, excerpt, if_neg named, h, shown]

theorem under_of_none {f : Failure} {e : Entry}
    (h : (wideLines (f.source.getD ""))[e.line]? = none) : f.under e = [] := by
  rw [under, excerpt, h]
  split <;> rfl

/-- What a report has under an entry whose line is in the source. If no line before it has a wide break,
it is the part of that line up to its first break: the line itself, as far as it shows, if blanks are all
that follows; an empty last line is left out. If a line before it has a break, it is a part of a line
before it. -/
theorem under_cases {f : Failure} {e : Entry} {line : List Char} (named : e.file ≠ "")
    (located : (sourceLines (f.source.getD ""))[e.line]? = some line) :
    let lines := sourceLines (f.source.getD "")
    let isLost := line = [] ∧ e.line + 1 = lines.length
    ((∀ l ∈ lines.take e.line, Unbroken l) →
      (¬isLost → f.under e = [shown (firstPart line)]) ∧
      (f.under e = [shown line] ↔
        ¬isLost ∧ ∀ c ∈ line.dropWhile (fun c => !isWideBreak c), isBlank c = true)) ∧
    ((∃ l ∈ lines.take e.line, ¬Unbroken l) →
      ∃ part ∈ (lines.take e.line).flatMap wideParts, f.under e = [shown part]) := by
  intro lines isLost
  refine ⟨fun unbroken => ?_, fun broken => ?_⟩
  · have wide := wideLines_of_unbroken located unbroken
    by_cases lost : isLost
    · rw [if_pos lost] at wide
      simp [under_of_none wide, lost]
    · rw [if_neg lost] at wide
      have found := under_of_some named wide
      refine ⟨fun _ => found, ?_⟩
      rw [found, ← trimRight_firstPart_eq_iff, ← shown_inj]
      simp [lost]
  · obtain ⟨part, earlier, there⟩ := wideLines_of_broken located broken
    exact ⟨part, earlier, under_of_some named there⟩

/-- A break in a line leaves the part before it. -/
theorem under_cases_part :
    let source := "x = 1 / 0 # \x0c end\n"
    let e : Entry := ⟨"ZeroDivisionError: division by zero", "T.py", 0, 4, "KL2001", false⟩
    let f : Failure := ⟨[e], some source, none, .null⟩
    e.file ≠ "" ∧ (sourceLines (f.source.getD ""))[e.line]? = some "x = 1 / 0 # \x0c end".toList ∧
      f.under e = ["     | x = 1 / 0 #"] := by
  intro source e f
  have named : e.file ≠ "" := by decide
  have located : (sourceLines (f.source.getD ""))[e.line]? = some "x = 1 / 0 # \x0c end".toList := by
    decide +kernel
  have found := ((under_cases named located).1 (by simp [e])).1 (by decide)
  refine ⟨named, located, found.trans ?_⟩
  decide +kernel

/-- A form feed in a comment: the error is in the second line, and the report shows none of it. -/
theorem under_moved :
    let c : Compiler := {}
    let context : Context := { source := "# \x0c\n)\n", className := "T" }
    let w : Workshop := { machine := { files := { folders := [["tmp"]] } } }
    ∃ report e, Compiler.report? ((c.compile context).run w).1 = some report ∧ report.entries = [e] ∧
      report.source = some context.source ∧ e.file = "/tmp/kiln_<1>/kiln.dynamic.T.py" ∧ e.line = 1 ∧
      (sourceLines context.source)[e.line]? = some ")".toList ∧
      report.under e = ["     | "] ∧ report.under e ≠ [shown ")".toList] := by
  intro c context w
  have compiled : (Compiler.report? ((c.compile context).run w).1).map
      (fun report => (report.entries.map fun e => (e.file, e.line), report.source)) =
        some ([("/tmp/kiln_<1>/kiln.dynamic.T.py", 1)], some context.source) := by decide +kernel
  obtain ⟨report, rejected, parts⟩ := Option.map_eq_some_iff.1 compiled
  obtain ⟨entries, source⟩ := Prod.mk.inj parts
  obtain ⟨e, only, place⟩ := List.map_eq_singleton_iff.1 entries
  obtain ⟨file, line⟩ := Prod.mk.inj place
  have there : (wideLines (report.source.getD ""))[e.line]? = some [] := by
    rw [source, line]
    decide +kernel
  have found := under_of_some (by rw [file]; decide) there
  refine ⟨report, e, rejected, only, source, file, line, ?_, found, ?_⟩
  · rw [line]
    decide +kernel
  · rw [found]
    decide +kernel

end Report.Failure

end Stencil
