import Stencil.Text.Column

/-!
Columns of places between characters. What precedes such a place on its line is a text; a column
counts its characters, and the byte offset of the place counts the bytes of its UTF-8 form. The two
counts agree where every character is one byte (`utf8Length_eq_length_iff`).
-/

namespace Stencil.Text

def Precedes (source : String) (line byteOffset : Nat) (before : List Char) : Prop :=
  ∃ text, (sourceLines source)[line]? = some text ∧ before <+: text ∧ utf8Length before = byteOffset

theorem wholeChars_zero (s : List Char) : wholeChars s 0 = 0 := by
  cases s with
  | nil => rfl
  | cons c s => exact if_neg (Nat.not_le.2 c.utf8Size_pos)

theorem wholeChars_append_add (before after : List Char) (bytes : Nat) :
    wholeChars (before ++ after) (utf8Length before + bytes) =
      before.length + wholeChars after bytes := by
  induction before with
  | nil => rw [List.nil_append, utf8Length_nil, Nat.zero_add, List.length_nil, Nat.zero_add]
  | cons c before ih =>
    rw [List.cons_append, wholeChars, utf8Length_cons, Nat.add_assoc, if_pos (Nat.le_add_right _ _),
      Nat.add_sub_cancel_left, ih, List.length_cons]
    omega

theorem wholeChars_append (before after : List Char) :
    wholeChars (before ++ after) (utf8Length before) = before.length :=
  (wholeChars_append_add before after 0).trans (by rw [wholeChars_zero, Nat.add_zero])

theorem wholeChars_inside {c : Char} {bytes : Nat} (before after : List Char)
    (short : bytes < c.utf8Size) :
    wholeChars (before ++ c :: after) (utf8Length before + bytes) = before.length := by
  rw [wholeChars_append_add, wholeChars, if_neg (Nat.not_le.2 short), Nat.add_zero]

theorem wholeChars_of_le {s : List Char} {bytes : Nat} (past : utf8Length s ≤ bytes) :
    wholeChars s bytes = s.length := by
  have counted := wholeChars_append_add s [] (bytes - utf8Length s)
  rwa [List.append_nil, Nat.add_sub_cancel' past, wholeChars, Nat.add_zero] at counted

theorem wholeChars_mono (s : List Char) {bytes more : Nat} (le : bytes ≤ more) :
    wholeChars s bytes ≤ wholeChars s more := by
  induction s generalizing bytes more with
  | nil => exact Nat.le_refl 0
  | cons c s ih =>
    rw [wholeChars, wholeChars]
    by_cases fits : c.utf8Size ≤ bytes
    · rw [if_pos fits, if_pos (Nat.le_trans fits le)]
      exact Nat.succ_le_succ (ih (Nat.sub_le_sub_right le _))
    · rw [if_neg fits]
      exact Nat.zero_le _

theorem Precedes.charColumn {source : String} {line byteOffset : Nat} {before : List Char}
    (h : Precedes source line byteOffset before) :
    charColumn source line byteOffset = before.length := by
  obtain ⟨text, found, ⟨after, rfl⟩, rfl⟩ := h
  rw [Text.charColumn, found]
  exact wholeChars_append before after

theorem utf8Length_append (s t : List Char) : utf8Length (s ++ t) = utf8Length s + utf8Length t := by
  induction s with
  | nil => rw [List.nil_append, utf8Length_nil, Nat.zero_add]
  | cons c s ih => rw [List.cons_append, utf8Length_cons, utf8Length_cons, ih, Nat.add_assoc]

theorem length_le_utf8Length (s : List Char) : s.length ≤ utf8Length s := by
  induction s with
  | nil => exact Nat.le_refl 0
  | cons c s ih =>
    have pos := c.utf8Size_pos
    rw [utf8Length_cons, List.length_cons]
    omega

/-- A text has as many bytes as characters if none of its characters takes more than one byte. -/
theorem utf8Length_eq_length_iff (s : List Char) :
    utf8Length s = s.length ↔ ∀ c ∈ s, c.val ≤ 127 := by
  induction s with
  | nil => simp
  | cons c s ih =>
    have pos := c.utf8Size_pos
    have least := length_le_utf8Length s
    rw [List.forall_mem_cons, ← ih, ← Char.utf8Size_eq_one_iff, utf8Length_cons, List.length_cons]
    omega

end Stencil.Text
