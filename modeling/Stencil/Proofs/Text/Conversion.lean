import Mathlib.Data.Nat.Basic
import Mathlib.Order.Monotone.Defs
import Stencil.Proofs.Text.Numbering
import Stencil.Proofs.Text.Utf8

/-!
Byte offsets as columns. On every line, as the parser counts lines, the column of a byte offset is the
number of characters that are complete before it (`charColumn_converts`). It is what is left to read
when the bytes of the line are cut off there, and wherever the parser stands in a source it is the
column that the parser has counted itself.
-/

namespace Stencil.Text

open Script

/-- The column by way of the bytes of a line: they are cut off at the offset and read again. -/
def byteColumn (source : String) (line byteOffset : Nat) : Nat :=
  match (splitAt '\n' (replaceReturns (replacePairs source.toList)))[line]? with
  | none => byteOffset
  | some text => (spelled ((utf8 text).take byteOffset)).length

theorem charColumn_eq_byteColumn (source : String) (line byteOffset : Nat) :
    charColumn source line byteOffset = byteColumn source line byteOffset := by
  rw [charColumn, byteColumn, sourceLines, unifyEnds_eq_replaced]
  cases (splitAt '\n' (replaceReturns (replacePairs source.toList)))[line]? with
  | none => rfl
  | some text => exact (length_spelled_take text byteOffset).symm

structure Converts (column : Nat → Nat) (line : List Char) : Prop where
  between : ∀ before, before <+: line → column (utf8 before).length = before.length
  inside : ∀ before c after, line = before ++ c :: after →
    ∀ k < (String.utf8EncodeChar c).length, column ((utf8 before).length + k) = before.length
  past : ∀ k, (utf8 line).length ≤ k → column k = line.length

variable {source : String} {n : Nat} {line : List Char}

theorem charColumn_of_line (h : (sourceLines source)[n]? = some line) (k : Nat) :
    charColumn source n k = wholeChars line k := by rw [charColumn, h]

theorem converts_of_line (h : (sourceLines source)[n]? = some line) :
    Converts (charColumn source n) line where
  between before := by
    rintro ⟨after, rfl⟩
    rw [charColumn_of_line h, length_utf8, wholeChars_append]
  inside before c after := by
    rintro rfl k short
    rw [String.length_utf8EncodeChar] at short
    rw [charColumn_of_line h, length_utf8, wholeChars_inside before after short]
  past k le := by
    rw [length_utf8] at le
    rw [charColumn_of_line h, wholeChars_of_le le]

theorem monotone_charColumn (source : String) (n : Nat) : Monotone (charColumn source n) := by
  intro k l le
  rw [charColumn, charColumn]
  cases (sourceLines source)[n]? with
  | none => exact le
  | some line => exact wholeChars_mono line le

section reading

theorem line_of_prepared (h : (splitAt '\n' (prepared source))[n]? = some line) :
    (sourceLines source)[n]? = some line ∨ (sourceLines source)[n]? = none ∧ line = [] := by
  unfold prepared at h
  dsimp only at h
  split at h
  · exact .inl h
  · rw [splitAt_append] at h
    change (sourceLines source ++ [[]])[n]? = some line at h
    obtain inside | outside := Nat.lt_or_ge n (sourceLines source).length
    · rw [List.getElem?_append_left inside] at h
      exact .inl h
    · rw [List.getElem?_append_right outside] at h
      exact .inr ⟨List.getElem?_eq_none outside, List.mem_singleton.1 (List.mem_of_getElem? h)⟩

theorem charColumn_of_stood {r : Reader} {ended before : List Char}
    (h : r.Stood (prepared source) ended before) :
    charColumn source (r.pos.line - 1) r.pos.byte = r.pos.column := by
  obtain ⟨line, there, ⟨after, rfl⟩⟩ := h.getElem?
  rw [h.byte, h.column]
  obtain found | ⟨missing, empty⟩ := line_of_prepared there
  · rw [charColumn_of_line found, wholeChars_append]
  · obtain ⟨rfl, -⟩ := List.append_eq_nil_iff.1 empty
    rw [charColumn, missing]
    rfl

end reading

/-- Every source has lines as the parser counts them. On each of them a byte offset between characters
is converted to the number of characters before it, one inside a character to that of the complete
ones, and one past the end to the length of the line; the result never falls as the offset grows, on
lines that the source lacks too. It is found by cutting off the bytes of the line, and it is the
parser's own column wherever that stands. -/
theorem charColumn_converts (source : String) :
    (∃ lines, Lines source.toList lines) ∧
      (∀ lines, Lines source.toList lines → ∀ n line, lines[n]? = some line →
        Converts (charColumn source n) line) ∧
      (∀ n, Monotone (charColumn source n)) ∧
      (∀ n k, charColumn source n k = byteColumn source n k) ∧
      ∀ k, let r := (Reader.start (prepared source)).drop k
        charColumn source (r.pos.line - 1) r.pos.byte = r.pos.column := by
  refine ⟨exists_lines _, fun lines h n line there => ?_, monotone_charColumn source,
    charColumn_eq_byteColumn source, fun k => ?_⟩
  · rw [← h.eq] at there
    exact converts_of_line there
  · obtain ⟨ended, before, stood⟩ := (Reader.stood_start (prepared source)).drop k
    exact charColumn_of_stood stood

/-- All three ends of lines, and characters of one to four bytes. -/
theorem charColumn_converts_mixed :
    let source := "a\r\né€😀b\r\rc\n"
    Lines source.toList ["a".toList, "é€😀b".toList, [], "c".toList, []] ∧
      Converts (charColumn source 1) "é€😀b".toList ∧
      [0, 1, 2, 4, 5, 7, 9, 10, 99].map (charColumn source 1) = [0, 0, 1, 1, 2, 2, 3, 4, 4] := by
  intro source
  have lines : Lines source.toList ["a".toList, "é€😀b".toList, [], "c".toList, []] :=
    lines_iff.2 (by decide)
  exact ⟨lines, (charColumn_converts source).2.1 _ lines 1 _ rfl, by decide⟩

end Stencil.Text
