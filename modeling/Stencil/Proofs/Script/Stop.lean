import Stencil.Script.Class

/-!
How code ends. Code that ends early leaves a stop, and so does all that goes on from it; a guard turns
some errors into results and lets all else through.
-/

namespace Stencil.Script

def Stop.afresh : Stop → Stop
  | .raised error _ => .raised error false
  | .exhausted => .exhausted

namespace Run

variable {α β : Type} {code : Run α} {m n : Machine} {s : Stop}

def Stops (code : Run α) (m : Machine) (s : Stop) : Prop := (code.run m).1 = .error s

def Returns (code : Run α) : Prop := ∀ m, ∃ a n, code.run m = (.ok a, n)

theorem not_stops_of_ok {a : α} (h : code.run m = (.ok a, n)) : ¬code.Stops m s := by
  rw [Stops, h]
  rintro ⟨⟩

theorem stops_bind {f : α → Run β} :
    (code >>= f).Stops m s ↔
      code.Stops m s ∨ ∃ a o, code.run m = (.ok a, o) ∧ (f a).Stops o s := by
  unfold Stops
  rw [run_bind]
  rcases code.run m with ⟨s' | a, o⟩
  · constructor
    · rintro ⟨⟩
      exact .inl rfl
    · rintro (⟨⟨⟩⟩ | ⟨_, _, ⟨⟩, -⟩)
      rfl
  · refine ⟨fun h => .inr ⟨a, o, rfl, h⟩, ?_⟩
    rintro (⟨⟨⟩⟩ | ⟨_, _, ⟨⟩, h⟩)
    exact h

theorem stops_bind_ok {f : α → Run β} {a : α} (h : code.run m = (.ok a, n)) :
    (code >>= f).Stops m s ↔ (f a).Stops n s := by
  rw [Stops, run_bind, h]
  rfl

namespace Returns

theorem not_stops (h : Returns code) : ¬code.Stops m s := by
  obtain ⟨a, n, ran⟩ := h m
  exact not_stops_of_ok ran

theorem pure (a : α) : Returns (Pure.pure a : Run α) := fun _ => ⟨a, _, rfl⟩

theorem bind {f : α → Run β} (first : Returns code) (h : ∀ a, Returns (f a)) :
    Returns (code >>= f) := by
  intro m
  obtain ⟨a, o, ran⟩ := first m
  obtain ⟨b, n, ran'⟩ := h a o
  exact ⟨b, n, by rw [run_bind, ran]; exact ran'⟩

theorem stops_bind_iff {f : α → Run β} (h : ∀ a, Returns (f a)) :
    (code >>= f).Stops m s ↔ code.Stops m s := by
  rw [stops_bind]
  refine or_iff_left ?_
  rintro ⟨a, o, -, later⟩
  exact (h a).not_stops later

end Returns

theorem returns_object (ref : Nat) : Returns (object ref) := fun m => ⟨_, m, run_object ref m⟩

theorem returns_alloc (o : Object) : Returns (alloc o) := fun _ => ⟨_, _, rfl⟩

theorem stops_raiseOf {α : Type} {kind : String} {arguments : List Value} {m : Machine} {s : Stop} :
    (raiseOf kind arguments : Run α).Stops m s ↔ s = .raised m.heap.size false := by
  change (Except.error (.raised m.heap.size false) : Except Stop α) = .error s ↔ _
  rw [Except.error.injEq, eq_comm]

theorem run_derives (c base : ClassRef) (m : Machine) :
    ∃ b, (derives c base).run m = (.ok b, m) := by
  cases c with
  | library name => exact ⟨_, rfl⟩
  | defined ref =>
    rw [derives, run_bind, orderOf, run_bind, run_object]
    cases m.heap[ref]?.getD (.foreign "object" "") <;> exact ⟨_, rfl⟩

theorem returns_derives (c base : ClassRef) : Returns (derives c base) := by
  intro m
  obtain ⟨b, ran⟩ := run_derives c base m
  exact ⟨b, m, ran⟩

theorem returns_classOf (v : Value) : Returns (classOf v) := by
  cases v with
  | object ref => exact (returns_object ref).bind fun o => .pure _
  | cls c =>
    refine (returns_derives c _).bind fun abstract => ?_
    cases abstract <;> exact .pure _
  | _ => exact .pure _

theorem run_nameOf (c : ClassRef) (m : Machine) : ∃ name, (nameOf c).run m = (.ok name, m) := by
  cases c with
  | library name => exact ⟨_, rfl⟩
  | defined ref =>
    rw [nameOf, run_bind, run_object]
    cases m.heap[ref]?.getD (.foreign "object" "") <;> exact ⟨_, rfl⟩

theorem returns_kindOf (v : Value) : Returns (kindOf v) := by
  refine (returns_classOf v).bind fun c m => ?_
  obtain ⟨name, ran⟩ := run_nameOf c m
  exact ⟨name, m, ran⟩

def Asks (question : Nat → Run Bool) : Prop :=
  ∀ error m, ∃ b, (question error).run m = (.ok b, m)

section guard

variable {question : Nat → Run Bool} {o : Machine} {error : Nat}

theorem asks_isA (base : ClassRef) : Asks fun error => isA (.object error) base := by
  intro error m
  dsimp only
  rw [isA, run_bind, classOf, run_bind, run_object]
  exact run_derives _ base m

def Caught (question : Nat → Run Bool) (code : Run α) (m : Machine) (error : Nat) (o : Machine) :
    Prop :=
  ∃ placed, code.run m = (.error (.raised error placed), o) ∧ (question error).run o = (.ok true, o)

def Strays (question : Nat → Run Bool) (code : Run α) (m : Machine) (s : Stop) : Prop :=
  ∃ o, code.run m = (.error s, o) ∧
    ∀ error placed, s = .raised error placed → (question error).run o = (.ok false, o)

theorem Asks.returns_or (h : Asks question) (code : Run α) (m : Machine) :
    (∃ a o, code.run m = (.ok a, o)) ∨ (∃ error o, Caught question code m error o) ∨
      ∃ s, Strays question code m s := by
  rcases hc : code.run m with ⟨(⟨error, placed⟩ | _) | a, o⟩
  · obtain ⟨_ | _, answer⟩ := h error o
    · exact .inr (.inr ⟨_, o, hc, by rintro _ _ ⟨⟩; exact answer⟩)
    · exact .inr (.inl ⟨error, o, placed, hc, answer⟩)
  · exact .inr (.inr ⟨_, o, hc, by rintro _ _ ⟨⟩⟩)
  · exact .inl ⟨a, o, rfl⟩

/-- Code within a guard: errors of which the answer is yes are turned into a result, and all else
leaves as the guard lets it. -/
def guarding {α β : Type} (question : Nat → Run Bool) (give : α → β) (turn : Nat → β)
    (left : Stop → Stop) (code : Run α) : Run β :=
  tryCatch (give <$> code) fun
    | .raised error placed => do
      if ← question error then return turn error else throw (left (.raised error placed))
    | .exhausted => throw (left .exhausted)

section guarding

variable {β : Type} {give : α → β} {turn : Nat → β} {left : Stop → Stop}

theorem run_guarding_of_ok {a : α} (h : code.run m = (.ok a, o)) :
    (guarding question give turn left code).run m = (.ok (give a), o) := by
  rw [guarding, run_tryCatch, map_eq_pure_bind, run_bind, h]
  rfl

theorem run_guarding_of_caught (h : Caught question code m error o) :
    (guarding question give turn left code).run m = (.ok (turn error), o) := by
  obtain ⟨placed, ran, answer⟩ := h
  rw [guarding, run_tryCatch, map_eq_pure_bind, run_bind, ran]
  dsimp only
  rw [run_bind, answer]
  rfl

theorem Strays.stops_guarding (h : Strays question code m s) :
    (guarding question give turn left code).Stops m (left s) := by
  obtain ⟨o, ran, stray⟩ := h
  rw [Stops, guarding, run_tryCatch, map_eq_pure_bind, run_bind, ran]
  cases s with
  | exhausted => rfl
  | raised error placed =>
    dsimp only
    rw [run_bind, stray error placed rfl]
    rfl

theorem Asks.stops_guarding (h : Asks question) :
    (guarding question give turn left code).Stops m s ↔
      ∃ s', Strays question code m s' ∧ s = left s' := by
  constructor
  · intro stopped
    obtain ⟨a, o, ran⟩ | ⟨error, o, caught⟩ | ⟨s', stray⟩ := h.returns_or code m
    · exact absurd stopped (not_stops_of_ok (run_guarding_of_ok ran))
    · exact absurd stopped (not_stops_of_ok (run_guarding_of_caught caught))
    · rw [Stops, stray.stops_guarding] at stopped
      cases stopped
      exact ⟨s', stray, rfl⟩
  · rintro ⟨s', stray, rfl⟩
    exact stray.stops_guarding

theorem Asks.run_guarding (h : Asks question) {b : β}
    (ran : (guarding question give turn left code).run m = (.ok b, o)) :
    (∃ a, code.run m = (.ok a, o) ∧ b = give a) ∨
      ∃ error, Caught question code m error o ∧ b = turn error := by
  obtain ⟨a, o', ran'⟩ | ⟨error, o', caught⟩ | ⟨s', stray⟩ := h.returns_or code m
  · rw [run_guarding_of_ok ran'] at ran
    cases ran
    exact .inl ⟨a, ran', rfl⟩
  · rw [run_guarding_of_caught caught] at ran
    cases ran
    exact .inr ⟨error, caught, rfl⟩
  · exact absurd stray.stops_guarding (not_stops_of_ok ran)

end guarding

end guard

end Run

end Stencil.Script
