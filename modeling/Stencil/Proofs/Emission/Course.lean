import Stencil.Proofs.Emission.Drain

/-!
The course of an emission: what happens in its stages, and the machine that they leave. What an
emission reports and hands on is read off its course (`emit_course`).
-/

namespace Stencil.Emission

open Script Run

structure Course where
  left : Machine
  loading : List Event := []
  taking : List Event := []
  checking : List Event := []
  running : List Event := []

namespace Course

def stages (c : Course) : List (List Event) := [c.loading, c.taking, c.checking, c.running]

def events (c : Course) : List Event := c.stages.flatten

theorem events_eq (c : Course) : c.events = c.loading ++ c.taking ++ c.checking ++ c.running := by
  simp [events, stages]

end Course

section stages

variable (a : Assembly)

def tellLoading (module : Nat) : Told (List Nat) :=
  (tellEach .dependency (bindOne module) a.dependencies).drained (ownFiles a)

def tellTaking (module : Nat) (loaded : List Nat) : Told (List Unit) :=
  (tellEach .usage (useOne module loaded) a.options.usings).drained (ownFiles a)

def tellChecking : Told (List Program) :=
  (tellEach .source (checkOne a.options.optimize) a.sources).drained (ownFiles a)

def tellRunning (module : Nat) (programs : List Program) : Told Unit :=
  (tellBodies (runOne a.sources module) programs).drained (ownFiles a)

theorem loading_told (module : Nat) :
    Tells Prod.mk (tellEach .dependency (bindOne module) a.dependencies)
      (eachOf (bindOne module) a.dependencies) :=
  eachOf_told .dependency (bindOne module) a.dependencies

theorem taking_told (module : Nat) (loaded : List Nat) :
    Tells Prod.mk (tellEach .usage (useOne module loaded) a.options.usings)
      (eachOf (useOne module loaded) a.options.usings) :=
  eachOf_told .usage (useOne module loaded) a.options.usings

theorem checking_told :
    Tells Prod.mk (tellEach .source (checkOne a.options.optimize) a.sources)
      (eachOf (checkOne a.options.optimize) a.sources) :=
  eachOf_told .source (checkOne a.options.optimize) a.sources

theorem running_told (module : Nat) (programs : List Program) :
    Tells (fun p _ => p) (tellBodies (runOne a.sources module) programs)
      (untilFault (runOne a.sources module) programs) :=
  untilFault_told (runOne a.sources module) programs

/-- The course of the stages on a quiet machine; bodies are run if there was no fault before. -/
def courseOf (module : Nat) (m : Machine) : Course :=
  match (tellLoading a module).run m with
  | (.error _, left, loading) => { left, loading }
  | (.ok loaded, m, loading) =>
    match (tellTaking a module loaded).run m with
    | (.error _, left, taking) => { left, loading, taking }
    | (.ok _, m, taking) =>
      match (tellChecking a).run m with
      | (.error _, left, checking) => { left, loading, taking, checking }
      | (.ok programs, m, checking) =>
        if (faults (loading ++ taking ++ checking)).isEmpty then
          match (tellRunning a module programs).run m with
          | (_, left, running) => { left, loading, taking, checking, running }
        else { left := m, loading, taking, checking }

section courseOf

variable {module : Nat} {loaded : List Nat} {us : List Unit} {ps : List Program}
  {m m₁ m₂ m₃ : Machine} {loading taking checking : List Event}

theorem loading_courseOf :
    (courseOf a module m).loading = ((tellLoading a module).run m).2.2 := by
  unfold courseOf
  rcases (tellLoading a module).run m with ⟨s | loaded, m₁, loading⟩
  · rfl
  dsimp only
  rcases (tellTaking a module loaded).run m₁ with ⟨s | us, m₂, taking⟩
  · rfl
  dsimp only
  rcases (tellChecking a).run m₂ with ⟨s | ps, m₃, checking⟩
  · rfl
  dsimp only
  split <;> rfl

theorem taking_courseOf (hl : (tellLoading a module).run m = (.ok loaded, m₁, loading)) :
    (courseOf a module m).taking = ((tellTaking a module loaded).run m₁).2.2 := by
  simp only [courseOf, hl]
  rcases (tellTaking a module loaded).run m₁ with ⟨s | us, m₂, taking⟩
  · rfl
  dsimp only
  rcases (tellChecking a).run m₂ with ⟨s | ps, m₃, checking⟩
  · rfl
  dsimp only
  split <;> rfl

theorem checking_courseOf (hl : (tellLoading a module).run m = (.ok loaded, m₁, loading))
    (ht : (tellTaking a module loaded).run m₁ = (.ok us, m₂, taking)) :
    (courseOf a module m).checking = ((tellChecking a).run m₂).2.2 := by
  simp only [courseOf, hl, ht]
  rcases (tellChecking a).run m₂ with ⟨s | ps, m₃, checking⟩
  · rfl
  dsimp only
  split <;> rfl

theorem running_courseOf (hl : (tellLoading a module).run m = (.ok loaded, m₁, loading))
    (ht : (tellTaking a module loaded).run m₁ = (.ok us, m₂, taking))
    (hc : (tellChecking a).run m₂ = (.ok ps, m₃, checking))
    (well : (faults (loading ++ taking ++ checking)).isEmpty = true) :
    (courseOf a module m).running = ((tellRunning a module ps).run m₃).2.2 := by
  simp only [courseOf, hl, ht, hc, well, if_true]

end courseOf

/-- The machine that the stages of an emission start on: the module has its label, and all warnings
are noted. -/
def start (b : Builder) (m : Machine) : Machine :=
  ((label a b.module).run m.quiet).2.quiet.listening

def course (b : Builder) (m : Machine) : Course := courseOf a b.module (start a b m)

end stages

end Stencil.Emission
