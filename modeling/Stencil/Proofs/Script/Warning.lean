import Stencil.Proofs.Script.Asking

/-!
Warnings and their filters. The first filter that fits says whether a warning is noted as it is,
dropped or raised. A warning that is issued again is asked for its text before that; if it is a mere
text, no code is run.
-/

namespace Stencil.Script

def Issued.isPlain (w : Issued) : Bool := w.message matches .text _

theorem Issued.of_isPlain {w : Issued} (h : w.isPlain = true) : ∃ s, w.message = .text s := by
  unfold isPlain at h
  split at h
  · exact ⟨_, ‹_›⟩
  · cases h

namespace Service

open Run

variable {d : Deeper} {m n o : Machine} {w : Issued} {s : Stop}

theorem run_actionFor (kind : ClassRef) (line : Int) (fs : List Filter) (m : Machine) :
    ∃ action, (actionFor kind line fs).run m = (.ok action, m) := by
  induction fs with
  | nil => exact ⟨.note, rfl⟩
  | cons f rest ih =>
    obtain ⟨b, derived⟩ := run_derives kind f.category m
    rw [actionFor, run_bind, derived]
    dsimp only
    split
    · exact ⟨f.action, rfl⟩
    · exact ih

def Treats (w : Issued) (m : Machine) (action : Action) : Prop :=
  (actionFor w.kind w.line m.filters).run m = (.ok action, m)

theorem treats_note (w : Issued) (h : m.filters = []) : Treats w m .note := by
  rw [Treats, h]
  rfl

theorem run_filtered {action : Action} (h : Treats w m action) :
    (filtered w).run m = (match action with
      | .note => note w
      | .drop => pure ()
      | .raise => raiseWarning w).run m := by
  have treated : (actionFor w.kind w.line m.quiet.filters).run m = (.ok action, m) := h
  cases action <;> simp only [filtered, run_bind, run_get, treated]

theorem run_raiseWarning (w : Issued) (m : Machine) :
    ∃ error o, (raiseWarning w).run m = (.error (.raised error false), o) := by
  unfold raiseWarning
  split <;> exact ⟨_, _, rfl⟩

inductive Filtered (w : Issued) (m : Machine) : Machine → Prop
  | noted (fits : Treats w m .note) : Filtered w m { m with issued := m.issued ++ [w] }
  | dropped (fits : Treats w m .drop) : Filtered w m m

theorem of_run_filtered (h : (filtered w).run m = (.ok (), n)) : Filtered w m n := by
  obtain ⟨action, fits⟩ := run_actionFor w.kind w.line m.filters m
  rw [run_filtered fits] at h
  cases action with
  | note =>
    cases h
    exact .noted fits
  | drop =>
    cases h
    exact .dropped fits
  | raise =>
    obtain ⟨error, o, raised⟩ := run_raiseWarning w m
    cases raised.symm.trans h

theorem stops_filtered :
    (filtered w).Stops m s ↔ Treats w m .raise ∧ (raiseWarning w).Stops m s := by
  obtain ⟨action, fits⟩ := run_actionFor w.kind w.line m.filters m
  have only {other : Action} (h : Treats w m other) : other = action := by
    cases h.symm.trans fits
    rfl
  rw [Stops, run_filtered fits]
  cases action with
  | note | drop => exact iff_of_false (fun h => by cases h) fun h => by cases only h.1
  | raise => exact (and_iff_right fits).symm

theorem of_run_again (h : (again d w).run m = (.ok (), n)) :
    ∃ text o, (plainStep d w.message).run m = (.ok text, o) ∧ Filtered w o n := by
  obtain ⟨text, o, asked, h⟩ := of_run_bind h
  exact ⟨text, o, asked, of_run_filtered h⟩

theorem run_again {text : String} (asked : (plainStep d w.message).run m = (.ok text, o))
    (h : Filtered w o n) : (again d w).run m = (.ok (), n) := by
  rw [again, run_bind, asked]
  cases h with
  | noted fits => exact (run_filtered fits).trans rfl
  | dropped fits => exact run_filtered fits

/-- Ways in which a warning is not issued again: it gives no text, or a filter makes it an error. -/
inductive Refused (d : Deeper) (w : Issued) (m : Machine) (s : Stop) : Prop
  | wordless (h : (plainStep d w.message).Stops m s)
  | raised {text : String} {o : Machine} (asked : (plainStep d w.message).run m = (.ok text, o))
      (fits : Treats w o .raise) (h : (raiseWarning w).Stops o s)

theorem stops_again : (again d w).Stops m s ↔ Refused d w m s := by
  rw [again, stops_bind]
  constructor
  · rintro (h | ⟨text, o, asked, h⟩)
    · exact .wordless h
    · obtain ⟨fits, h⟩ := stops_filtered.1 h
      exact .raised asked fits h
  · rintro (h | ⟨asked, fits, h⟩)
    · exact .inl h
    · exact .inr ⟨_, _, asked, stops_filtered.2 ⟨fits, h⟩⟩

theorem run_plainStep_of_isPlain (d : Deeper) (h : w.isPlain = true) (m : Machine) :
    ∃ text, (plainStep d w.message).run m = (.ok text, m) := by
  obtain ⟨s, text⟩ := Issued.of_isPlain h
  rw [text]
  exact ⟨s, rfl⟩

end Service

end Stencil.Script
