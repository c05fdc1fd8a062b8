import Mathlib.Data.List.TakeWhile
import Stencil.Proofs.Files.Path
import Stencil.Text.Blank
import Stencil.Text.Lines

/-!
Two readings of the lines of a text. The wide lines are the pieces of the source lines between wide
breaks (`wideLines_eq`). So a wide line has the number of its source line as long as no break has come
before it, and is the part of that line up to its first break; one break is enough to move all that
follow.
-/

namespace Stencil.Text

def wideParts (line : List Char) : List (List Char) := line.splitOnP isWideBreak

def partsOf (cs : List Char) : List (List Char) := (splitAt '\n' (unifyEnds cs)).flatMap wideParts

/-- Without the last line if that is empty: an end at the end of a text opens no further line. -/
def closed (lines : List (List Char)) : List (List Char) :=
  if lines.getLast? = some [] then lines.dropLast else lines

theorem exists_splitAt_unifyEnds (cs : List Char) :
    ∃ line lines, splitAt '\n' (unifyEnds cs) = line :: lines :=
  List.exists_cons_of_ne_nil (splitAt_ne_nil _)

theorem partsOf_ne_nil (cs : List Char) : partsOf cs ≠ [] := by
  obtain ⟨line, lines, cut⟩ := exists_splitAt_unifyEnds cs
  rw [partsOf, cut, List.flatMap_cons]
  exact List.append_ne_nil_of_left_ne_nil (List.splitOnP_ne_nil _ _) _

theorem partsOf_pair (rest : List Char) : partsOf ('\r' :: '\n' :: rest) = [] :: partsOf rest := by
  simp [partsOf, unifyEnds, splitAt, wideParts]

theorem partsOf_cons {c : Char} {rest : List Char} (alone : ∀ after, c = '\r' → rest ≠ '\n' :: after) :
    partsOf (c :: rest) =
      if isWideBreak c then [] :: partsOf rest else (partsOf rest).modifyHead (c :: ·) := by
  by_cases ends : c = '\n' ∨ c = '\r'
  · have unified : unifyEnds (c :: rest) = '\n' :: unifyEnds rest := by
      obtain rfl | rfl := ends
      · rw [unifyEnds] <;> simp
      · rw [unifyEnds]
        exact fun after => alone after rfl
    have wide : isWideBreak c = true := by
      obtain rfl | rfl := ends <;> rfl
    rw [partsOf, unified, if_pos wide]
    simp [partsOf, splitAt, wideParts]
  · rw [not_or] at ends
    have unified : unifyEnds (c :: rest) = c :: unifyEnds rest := by
      rw [unifyEnds]
      · exact fun _ same => absurd same ends.2
      · exact ends.2
    obtain ⟨line, lines, cut⟩ := exists_splitAt_unifyEnds rest
    obtain ⟨part, parts, first⟩ :=
      List.exists_cons_of_ne_nil (List.splitOnP_ne_nil isWideBreak line)
    simp only [partsOf, unified, splitAt, if_neg ends.1, cut, List.flatMap_cons, wideParts,
      List.splitOnP_cons_eq_if_modifyHead, first]
    split <;> simp

theorem closed_cons (line : List Char) {lines : List (List Char)} (h : lines ≠ []) :
    closed (line :: lines) = line :: closed lines := by
  obtain ⟨first, rest, rfl⟩ := List.exists_cons_of_ne_nil h
  unfold closed
  rw [List.getLast?_cons_cons]
  split <;> simp

theorem modifyHead_nil_append (lines : List (List Char)) :
    lines.modifyHead ([].reverse ++ ·) = lines := by
  cases lines <;> rfl

theorem cutWide_eq (line cs : List Char) :
    cutWide line cs = closed ((partsOf cs).modifyHead (line.reverse ++ ·)) := by
  fun_induction cutWide line cs with
  | case1 => rfl
  | case2 line filled =>
    have none : line.reverse ≠ [] := by simpa using filled
    simp [partsOf, unifyEnds, splitAt, wideParts, closed, none]
  | case3 line rest ih =>
    rw [ih, modifyHead_nil_append, partsOf_pair, List.modifyHead_cons, List.append_nil,
      closed_cons _ (partsOf_ne_nil rest)]
  | case4 line c rest alone wide ih =>
    rw [ih, modifyHead_nil_append, partsOf_cons alone, if_pos wide, List.modifyHead_cons,
      List.append_nil, closed_cons _ (partsOf_ne_nil rest)]
  | case5 line c rest alone narrow ih =>
    obtain ⟨first, parts, cut⟩ := List.exists_cons_of_ne_nil (partsOf_ne_nil rest)
    rw [ih, partsOf_cons alone, if_neg narrow, cut]
    simp

theorem wideLines_eq (text : String) :
    wideLines text = closed ((sourceLines text).flatMap wideParts) := by
  rw [wideLines, cutWide_eq, modifyHead_nil_append, partsOf, sourceLines]

theorem getElem?_closed (lines : List (List Char)) (k : Nat) :
    (closed lines)[k]? =
      if lines[k]? = some [] ∧ k + 1 = lines.length then none else lines[k]? := by
  by_cases empty : lines.getLast? = some []
  · rw [closed, if_pos empty, List.dropLast_eq_take, List.getElem?_take]
    rw [List.getLast?_eq_getElem?] at empty
    split
    · rw [if_neg fun h => by omega]
    · by_cases last : k + 1 = lines.length
      · rw [← last, Nat.add_sub_cancel] at empty
        rw [if_pos ⟨empty, last⟩]
      · rw [if_neg fun h => last h.2, List.getElem?_eq_none (by omega)]
  · rw [closed, if_neg empty, if_neg]
    rintro ⟨same, last⟩
    rw [List.getLast?_eq_getElem?, ← last, Nat.add_sub_cancel] at empty
    exact empty same

def Unbroken (line : List Char) : Prop := ∀ c ∈ line, isWideBreak c = false

def firstPart (line : List Char) : List Char := line.takeWhile fun c => !isWideBreak c

theorem firstPart_of_unbroken {line : List Char} (h : Unbroken line) : firstPart line = line :=
  List.takeWhile_eq_self_iff.2 fun c hc => by rw [h c hc]; rfl

theorem wideParts_eq_cons (line : List Char) :
    ∃ more, wideParts line = firstPart line :: more ∧ (more = [] ↔ Unbroken line) := by
  induction line with
  | nil => exact ⟨[], rfl, by simp [Unbroken]⟩
  | cons c line ih =>
    obtain ⟨more, parts, ends⟩ := ih
    unfold wideParts firstPart Unbroken at *
    rw [List.splitOnP_cons_eq_if_modifyHead, parts]
    cases wide : isWideBreak c with
    | true => exact ⟨_, by simp [wide]; rfl, by simp [wide]⟩
    | false => exact ⟨more, by simp [wide], by simpa [wide] using ends⟩

theorem flatMap_wideParts {lines : List (List Char)} (h : ∀ l ∈ lines, Unbroken l) :
    lines.flatMap wideParts = lines := by
  induction lines with
  | nil => rfl
  | cons l lines ih =>
    rw [List.forall_mem_cons] at h
    rw [List.flatMap_cons, wideParts, List.splitOnP_eq_singleton h.1, ih h.2]
    rfl

theorem length_flatMap_wideParts (lines : List (List Char)) :
    lines.length ≤ (lines.flatMap wideParts).length ∧
      ((∃ l ∈ lines, ¬Unbroken l) → lines.length < (lines.flatMap wideParts).length) := by
  induction lines with
  | nil => simp
  | cons l lines ih =>
    obtain ⟨more, parts, ends⟩ := wideParts_eq_cons l
    rw [List.flatMap_cons, parts]
    simp only [List.length_cons, List.length_append, List.cons_append]
    refine ⟨by omega, ?_⟩
    rintro ⟨l', hl, broken⟩
    obtain rfl | hl := List.mem_cons.1 hl
    · have filled := List.length_pos_iff.2 (mt ends.1 broken)
      omega
    · have longer := ih.2 ⟨l', hl, broken⟩
      omega

section numbering

variable {text : String} {k : Nat} {line : List Char}

theorem parts_around (h : (sourceLines text)[k]? = some line) :
    (sourceLines text).flatMap wideParts = ((sourceLines text).take k).flatMap wideParts ++
      (wideParts line ++ ((sourceLines text).drop (k + 1)).flatMap wideParts) := by
  obtain ⟨inside, same⟩ := List.getElem?_eq_some_iff.1 h
  rw [← List.flatMap_cons, ← same, ← List.drop_eq_getElem_cons inside, ← List.flatMap_append,
    List.take_append_drop]

theorem wideLines_of_unbroken (h : (sourceLines text)[k]? = some line)
    (unbroken : ∀ l ∈ (sourceLines text).take k, Unbroken l) :
    (wideLines text)[k]? =
      if line = [] ∧ k + 1 = (sourceLines text).length then none else some (firstPart line) := by
  obtain ⟨more, parts, ends⟩ := wideParts_eq_cons line
  obtain ⟨inside, -⟩ := List.getElem?_eq_some_iff.1 h
  have before : ((sourceLines text).take k).length = k := List.length_take_of_le (by omega)
  have around := parts_around h
  rw [flatMap_wideParts unbroken, parts] at around
  have lengths := congrArg List.length around
  simp only [List.length_append, List.length_cons, before] at lengths
  have later := length_flatMap_wideParts ((sourceLines text).drop (k + 1))
  rw [List.length_drop] at later
  have agree : some (firstPart line) = some [] ∧ k + 1 = ((sourceLines text).flatMap wideParts).length ↔
      line = [] ∧ k + 1 = (sourceLines text).length := by
    constructor
    · rintro ⟨first, last⟩
      have whole : Unbroken line := ends.1 (List.eq_nil_of_length_eq_zero (by omega))
      rw [firstPart_of_unbroken whole] at first
      exact ⟨Option.some.inj first, by omega⟩
    · rintro ⟨rfl, last⟩
      have nothing : (sourceLines text).drop (k + 1) = [] := List.drop_eq_nil_of_le (by omega)
      have more : more = [] := ends.2 (by simp [Unbroken])
      refine ⟨rfl, ?_⟩
      rw [nothing, more] at lengths
      simpa using lengths.symm
  have there : ((sourceLines text).flatMap wideParts)[k]? = some (firstPart line) := by
    rw [around, List.getElem?_append_right (by omega), before, Nat.sub_self, List.cons_append,
      List.getElem?_cons_zero]
  rw [wideLines_eq, getElem?_closed, there]
  simp only [agree]

theorem wideLines_of_broken (h : (sourceLines text)[k]? = some line)
    (broken : ∃ l ∈ (sourceLines text).take k, ¬Unbroken l) :
    ∃ part ∈ ((sourceLines text).take k).flatMap wideParts, (wideLines text)[k]? = some part := by
  obtain ⟨more, parts, -⟩ := wideParts_eq_cons line
  obtain ⟨inside, -⟩ := List.getElem?_eq_some_iff.1 h
  have before : ((sourceLines text).take k).length = k := List.length_take_of_le (by omega)
  have longer := (length_flatMap_wideParts ((sourceLines text).take k)).2 broken
  rw [before] at longer
  have around := parts_around h
  refine ⟨_, List.getElem_mem longer, ?_⟩
  rw [wideLines_eq, getElem?_closed, if_neg, around, List.getElem?_append_left longer,
    List.getElem?_eq_getElem longer]
  rintro ⟨-, last⟩
  rw [around, parts] at last
  simp only [List.length_append, List.length_cons] at last
  omega

end numbering

end Stencil.Text
