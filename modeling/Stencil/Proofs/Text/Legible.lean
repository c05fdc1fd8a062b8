import Mathlib.Data.List.Forall2
import Stencil.Text.Letter
import Stencil.Text.Lines

/-!
Texts that can be told from the front. A text is legible among others if there is one way only to read
it at the beginning of a longer one. Words end where a character comes that no word has; a list of
legible texts is legible if the gaps between them are told from what comes after the list.
-/

namespace Stencil.Text

def EndsAt (stops rest : List Char) : Prop := ∀ c ∈ rest.head?, c ∈ stops

theorem endsAt_nil (stops : List Char) : EndsAt stops [] := by simp [EndsAt]

theorem endsAt_cons {stops : List Char} {c : Char} (h : c ∈ stops) (rest : List Char) :
    EndsAt stops (c :: rest) := by simpa [EndsAt] using h

theorem EndsAt.mono {stops others rest : List Char} (h : EndsAt stops rest)
    (sub : stops ⊆ others) : EndsAt others rest := fun c hc => sub (h c hc)

theorem word_append_inj {p : Char → Bool} {stops x y r s : List Char}
    (apart : ∀ c ∈ stops, p c = false) (hx : ∀ c ∈ x, p c = true) (hy : ∀ c ∈ y, p c = true)
    (hr : EndsAt stops r) (hs : EndsAt stops s) (h : x ++ r = y ++ s) : x = y ∧ r = s := by
  have across {z rest : List Char} {c : Char} (ends : EndsAt stops z) (more : z = c :: rest)
      (hc : p c = true) : False := by
    have stop := apart c (ends c (by simp [more]))
    rw [stop] at hc
    cases hc
  induction x generalizing y with
  | nil =>
    cases y with
    | nil => exact ⟨rfl, h⟩
    | cons d y => exact (across hr h (hy d List.mem_cons_self)).elim
  | cons c x ih =>
    cases y with
    | nil => exact (across hs h.symm (hx c List.mem_cons_self)).elim
    | cons d y =>
      obtain ⟨rfl, rest⟩ := List.cons.inj h
      obtain ⟨rfl, after⟩ := ih (fun c hc => hx c (List.mem_cons_of_mem _ hc))
        (fun c hc => hy c (List.mem_cons_of_mem _ hc)) rest
      exact ⟨rfl, after⟩

/-- A text that is told, by what it means, from all texts of a kind, whatever comes after them. -/
def Legible {β : Type} (stops : List Char) (kind : List Char → β → Prop) (x : List Char) (b : β) :
    Prop :=
  ∀ y c r s, kind y c → EndsAt stops r → EndsAt stops s → x ++ r = y ++ s → b = c ∧ r = s

section lists

variable {β : Type} {stops gap r s : List Char} {mark : Char} {kind : List Char → β → Prop}
  {xs ys : List (List Char)} {bs cs : List β}

theorem intercalate_cons_append (sep x r : List Char) (xs : List (List Char)) :
    ∃ rest, sep.intercalate (x :: xs) ++ r = x ++ rest ∧
      (xs = [] ∧ rest = r ∨ xs ≠ [] ∧ rest = sep ++ (sep.intercalate xs ++ r)) := by
  cases xs with
  | nil => exact ⟨r, by simp, .inl ⟨rfl, rfl⟩⟩
  | cons y ys =>
    refine ⟨_, ?_, .inr ⟨List.cons_ne_nil y ys, rfl⟩⟩
    rw [List.intercalate_cons_cons]
    simp only [List.append_assoc]

theorem joined_append_inj (gaps : mark ∈ stops)
    (read : List.Forall₂ (Legible stops kind) xs bs) (others : List.Forall₂ kind ys cs)
    (hx : xs ≠ []) (hy : ys ≠ []) (hr : EndsAt stops r) (hs : EndsAt stops s)
    (lastr : r.head? ≠ some mark) (lasts : s.head? ≠ some mark)
    (h : (mark :: gap).intercalate xs ++ r = (mark :: gap).intercalate ys ++ s) :
    bs = cs ∧ r = s := by
  induction read generalizing ys cs with
  | nil => exact absurd rfl hx
  | @cons x b xs bs legible read ih =>
    cases others with
    | nil => exact absurd rfl hy
    | @cons y c ys cs means others =>
      obtain ⟨u, front, later⟩ := intercalate_cons_append (mark :: gap) x r xs
      obtain ⟨v, front', later'⟩ := intercalate_cons_append (mark :: gap) y s ys
      rw [front, front'] at h
      have goesOn (z : List Char) : EndsAt stops ((mark :: gap) ++ z) := endsAt_cons gaps _
      obtain ⟨rfl, rfl⟩ | ⟨more, rfl⟩ := later <;> obtain ⟨rfl, rfl⟩ | ⟨more', rfl⟩ := later'
      · cases read
        cases others
        obtain ⟨same, after⟩ := legible y c _ _ means hr hs h
        exact ⟨by rw [same], after⟩
      · obtain ⟨-, after⟩ := legible y c _ _ means hr (goesOn _) h
        exact absurd (congrArg List.head? after) lastr
      · obtain ⟨-, after⟩ := legible y c _ _ means (goesOn _) hs h
        exact absurd (congrArg List.head? after).symm lasts
      · obtain ⟨same, after⟩ := legible y c _ _ means (goesOn _) (goesOn _) h
        obtain ⟨rest, last⟩ := ih others more more' (List.append_cancel_left after)
        exact ⟨by rw [same, rest], last⟩

theorem bracketed_append_inj {close : Char} (gaps : mark ∈ stops) (closes : close ∈ stops)
    (differ : close ≠ mark) (read : List.Forall₂ (Legible stops kind) xs bs)
    (means : List.Forall₂ kind xs bs) (others : List.Forall₂ kind ys cs)
    (opens : ∀ y c z, kind y c → (y ++ z).head? ≠ some close)
    (h : (mark :: gap).intercalate xs ++ close :: r = (mark :: gap).intercalate ys ++ close :: s) :
    bs = cs ∧ r = s := by
  have begins {x : List Char} {xs : List (List Char)} {b : β} (first : kind x b) :
      ((mark :: gap).intercalate (x :: xs) ++ close :: r).head? ≠ some close ∧
        ((mark :: gap).intercalate (x :: xs) ++ close :: s).head? ≠ some close := by
    obtain ⟨u, front, -⟩ := intercalate_cons_append (mark :: gap) x (close :: r) xs
    obtain ⟨v, front', -⟩ := intercalate_cons_append (mark :: gap) x (close :: s) xs
    rw [front, front']
    exact ⟨opens x b u first, opens x b v first⟩
  cases means with
  | nil =>
    cases others with
    | nil => exact ⟨rfl, (List.cons.inj h).2⟩
    | cons first _ => exact absurd (congrArg List.head? h).symm (begins first).2
  | cons first means =>
    cases others with
    | nil => exact absurd (congrArg List.head? h) (begins first).1
    | cons first' others =>
      have ends (z : List Char) : EndsAt stops (close :: z) := endsAt_cons closes z
      have last (z : List Char) : (close :: z).head? ≠ some mark := by simpa using differ
      obtain ⟨same, after⟩ := joined_append_inj gaps read (.cons first' others) (List.cons_ne_nil _ _)
        (List.cons_ne_nil _ _) (ends r) (ends s) (last r) (last s) h
      exact ⟨same, (List.cons.inj after).2⟩

end lists

end Stencil.Text
