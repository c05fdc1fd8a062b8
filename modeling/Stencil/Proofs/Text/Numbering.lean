import Stencil.Proofs.Files.Path
import Stencil.Proofs.Text.Column
import Stencil.Script.Lexer

/-!
The numbers of lines. A line of a source ends at a line feed, at a carriage return or at the pair of
them (`Lines`), and every source has its lines in one way (`lines_iff`): replacing first the pairs and
then the returns by line feeds merges no two lines and splits none. Reading a source character by
character counts the same lines, with the column and the byte offset of one and the same text before
the place (`Reader.Stood.getElem?`).
-/

namespace Stencil

namespace Text

def Endless (line : List Char) : Prop := ∀ c ∈ line, c ≠ '\n' ∧ c ≠ '\r'

/-- What ends a line in front of the rest of a text; a return that a line feed follows is half of a
pair. -/
inductive Ends : List Char → List Char → Prop
  | feed (rest : List Char) : Ends ['\n'] rest
  | pair (rest : List Char) : Ends ['\r', '\n'] rest
  | back {rest : List Char} (alone : ∀ after, rest ≠ '\n' :: after) : Ends ['\r'] rest

inductive Lines : List Char → List (List Char) → Prop
  | last {line : List Char} (endless : Endless line) : Lines line [line]
  | ended {line ending rest : List Char} {lines : List (List Char)} (endless : Endless line)
      (ends : Ends ending rest) (later : Lines rest lines) :
      Lines (line ++ (ending ++ rest)) (line :: lines)

variable {line ending rest cs : List Char} {lines : List (List Char)}

theorem unifyEnds_append (endless : Endless line) (rest : List Char) :
    unifyEnds (line ++ rest) = line ++ unifyEnds rest := by
  induction line with
  | nil => rfl
  | cons c line ih =>
    obtain ⟨plain, others⟩ := List.forall_mem_cons.1 endless
    rw [List.cons_append, unifyEnds, ih others, List.cons_append]
    · exact fun _ same => absurd same plain.2
    · exact plain.2

theorem Ends.unifyEnds (h : Ends ending rest) : unifyEnds (ending ++ rest) = '\n' :: unifyEnds rest := by
  cases h with
  | feed => exact Text.unifyEnds.eq_4 _ _ (by simp) (by simp)
  | pair => rfl
  | back alone =>
    change Text.unifyEnds ('\r' :: rest) = _
    rw [Text.unifyEnds]
    exact alone

theorem Endless.not_mem (h : Endless line) : '\n' ∉ line := fun member => (h _ member).1 rfl

theorem Lines.eq (h : Lines cs lines) : splitAt '\n' (unifyEnds cs) = lines := by
  induction h with
  | @last line endless =>
    have whole := unifyEnds_append endless []
    rw [List.append_nil] at whole
    rw [whole, unifyEnds, List.append_nil, splitAt_of_not_mem endless.not_mem]
  | @ended line ending rest lines endless ends later ih =>
    rw [unifyEnds_append endless, ends.unifyEnds, splitAt_append, splitAt_of_not_mem endless.not_mem, ih]
    rfl

theorem Lines.cons {c : Char} (h : Lines cs (line :: lines)) (feed : c ≠ '\n') (back : c ≠ '\r') :
    Lines (c :: cs) ((c :: line) :: lines) := by
  cases h with
  | last endless => exact .last (List.forall_mem_cons.2 ⟨⟨feed, back⟩, endless⟩)
  | ended endless ends later => exact .ended (List.forall_mem_cons.2 ⟨⟨feed, back⟩, endless⟩) ends later

theorem exists_lines (cs : List Char) : ∃ lines, Lines cs lines := by
  have none : Endless [] := fun c member => absurd member List.not_mem_nil
  fun_induction unifyEnds cs with
  | case1 => exact ⟨_, .last none⟩
  | case2 rest ih =>
    obtain ⟨lines, later⟩ := ih
    exact ⟨_, .ended none (.pair rest) later⟩
  | case3 rest alone ih =>
    obtain ⟨lines, later⟩ := ih
    exact ⟨_, .ended none (.back alone) later⟩
  | case4 c rest pair other ih =>
    obtain ⟨lines, later⟩ := ih
    by_cases feed : c = '\n'
    · rw [feed]
      exact ⟨_, .ended none (.feed rest) later⟩
    · obtain ⟨first, others, rfl⟩ : ∃ first others, lines = first :: others := by
        cases later <;> exact ⟨_, _, rfl⟩
      exact ⟨_, later.cons feed other⟩

theorem lines_iff : Lines cs lines ↔ splitAt '\n' (unifyEnds cs) = lines := by
  refine ⟨Lines.eq, ?_⟩
  rintro rfl
  obtain ⟨lines, h⟩ := exists_lines cs
  rwa [h.eq]

theorem length_splitAt (cs : List Char) : (splitAt '\n' cs).length = cs.count '\n' + 1 := by
  induction cs with
  | nil => rfl
  | cons c rest ih =>
    rw [splitAt, List.count_cons]
    by_cases feed : c = '\n'
    · rw [if_pos feed, List.length_cons, ih, feed]
      rfl
    · rw [if_neg feed]
      cases cut : splitAt '\n' rest with
      | nil => exact absurd cut (splitAt_ne_nil rest)
      | cons line lines =>
        rw [cut] at ih
        simpa [feed] using ih

section replacing

def replacePairs : List Char → List Char
  | [] => []
  | '\r' :: '\n' :: rest => '\n' :: replacePairs rest
  | c :: rest => c :: replacePairs rest

def replaceReturns (cs : List Char) : List Char := cs.map fun c => if c = '\r' then '\n' else c

theorem unifyEnds_eq_replaced (cs : List Char) : unifyEnds cs = replaceReturns (replacePairs cs) := by
  fun_induction unifyEnds cs with
  | case1 => rfl
  | case2 rest ih => rw [ih]; rfl
  | case3 rest alone ih =>
    rw [ih, replacePairs]
    · rfl
    · exact fun after _ => alone after
  | case4 c rest pair other ih =>
    rw [ih, replacePairs]
    · exact congrArg (· :: replaceReturns (replacePairs rest)) (if_neg other).symm
    · exact pair

end replacing

end Text

namespace Script.Reader

open Text

/-- Where reading a text has come to: lines that ended, and what was read of the line after them. -/
structure Stood (text : List Char) (r : Reader) (ended before : List Char) : Prop where
  split : text = ended ++ (before ++ r.rest)
  closed : ended = [] ∨ ∃ done, ended = done ++ ['\n']
  endless : '\n' ∉ before
  line : r.pos.line = ended.count '\n' + 1
  column : r.pos.column = before.length
  byte : r.pos.byte = utf8Length before

def start (text : List Char) : Reader := { rest := text, pos := ⟨1, 0, 0⟩ }

theorem stood_start (text : List Char) : Stood text (start text) [] [] :=
  ⟨rfl, .inl rfl, List.not_mem_nil, rfl, rfl, rfl⟩

variable {text ended before : List Char} {r : Reader}

theorem Stood.skip (h : Stood text r ended before) : ∃ ended' before', Stood text r.skip ended' before' := by
  obtain ⟨rest, pos, lastLength⟩ := r
  cases rest with
  | nil => exact ⟨ended, before, h⟩
  | cons c rest =>
    by_cases feed : c = '\n'
    · subst feed
      have position : (skip ⟨'\n' :: rest, pos, lastLength⟩).pos = ⟨pos.line + 1, 0, 0⟩ := rfl
      refine ⟨ended ++ (before ++ ['\n']), [], ?_, .inr ⟨ended ++ before, ?_⟩, List.not_mem_nil, ?_, ?_, ?_⟩
      · rw [h.split]
        simp [skip]
      · rw [List.append_assoc]
      · have none := List.count_eq_zero.2 h.endless
        rw [position, List.count_append, List.count_append, none, List.count_singleton_self]
        exact congrArg (· + 1) h.line
      · rw [position]
        rfl
      · rw [position]
        rfl
    · have moved : skip ⟨c :: rest, pos, lastLength⟩ =
          ⟨rest, ⟨pos.line, pos.column + 1, pos.byte + c.utf8Size⟩, lastLength⟩ := by
        unfold skip
        split
        · next nothing => cases nothing
        · next same => exact absurd (List.cons.inj same).1 feed
        · next same =>
          cases same
          rfl
      rw [moved]
      refine ⟨ended, before ++ [c], ?_, h.closed, ?_, h.line, ?_, ?_⟩
      · rw [h.split]
        simp
      · rw [List.mem_append, List.mem_singleton, not_or]
        exact ⟨h.endless, Ne.symm feed⟩
      · rw [List.length_append]
        exact congrArg (· + 1) h.column
      · rw [utf8Length_append]
        exact congrArg (· + c.utf8Size) h.byte

theorem Stood.drop (h : Stood text r ended before) (n : Nat) :
    ∃ ended' before', Stood text (r.drop n) ended' before' := by
  induction n generalizing r ended before with
  | zero => exact ⟨ended, before, h⟩
  | succ n ih =>
    obtain ⟨_, _, next⟩ := h.skip
    exact ih next

theorem Stood.getElem? (h : Stood text r ended before) :
    ∃ line, (splitAt '\n' text)[r.pos.line - 1]? = some line ∧ before <+: line := by
  obtain ⟨after, lines, cut⟩ := splitAt_append_of_not_mem h.endless r.rest
  refine ⟨before ++ after, ?_, List.prefix_append before after⟩
  rw [h.line, h.split, Nat.add_sub_cancel]
  obtain rfl | ⟨done, rfl⟩ := h.closed
  · rw [List.nil_append, cut]
    rfl
  · rw [List.append_assoc, List.singleton_append, splitAt_append, cut, List.count_append,
      List.count_singleton_self, ← length_splitAt, List.getElem?_append_right (Nat.le_refl _), Nat.sub_self]
    rfl

end Script.Reader

end Stencil
