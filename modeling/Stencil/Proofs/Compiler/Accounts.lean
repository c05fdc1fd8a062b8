import Stencil.Proofs.Compiler.Verdict
import Stencil.Proofs.Metric.Count

/-!
The accounts of compilations. Each call is counted when it begins, its diagnostics when they are known,
and how it went when it ends, however it ends. Between calls the metrics say exactly how many there were
and what became of them (`compile_accounts`).
-/

namespace Stencil

open Number (limit)

structure Tally where
  calls : Nat := 0
  active : Nat := 0
  timed : Nat := 0
  successes : Nat := 0
  failures : Nat := 0
  diagnostics : Nat := 0
  warnings : Nat := 0
  deriving DecidableEq

namespace Tally

structure Small (t : Tally) : Prop where
  calls : t.calls < limit
  successes : t.successes < limit
  failures : t.failures < limit
  diagnostics : t.diagnostics < limit
  warnings : t.warnings < limit

structure AtMost (t u : Tally) : Prop where
  calls : t.calls ≤ u.calls
  successes : t.successes ≤ u.successes
  failures : t.failures ≤ u.failures
  diagnostics : t.diagnostics ≤ u.diagnostics
  warnings : t.warnings ≤ u.warnings

theorem AtMost.refl (t : Tally) : t.AtMost t :=
  ⟨Nat.le_refl _, Nat.le_refl _, Nat.le_refl _, Nat.le_refl _, Nat.le_refl _⟩

theorem AtMost.trans {t u v : Tally} (h : t.AtMost u) (h' : u.AtMost v) : t.AtMost v :=
  ⟨Nat.le_trans h.calls h'.calls, Nat.le_trans h.successes h'.successes,
    Nat.le_trans h.failures h'.failures, Nat.le_trans h.diagnostics h'.diagnostics,
    Nat.le_trans h.warnings h'.warnings⟩

theorem AtMost.small {t u : Tally} (h : t.AtMost u) (small : u.Small) : t.Small :=
  ⟨Nat.lt_of_le_of_lt h.calls small.calls, Nat.lt_of_le_of_lt h.successes small.successes,
    Nat.lt_of_le_of_lt h.failures small.failures, Nat.lt_of_le_of_lt h.diagnostics small.diagnostics,
    Nat.lt_of_le_of_lt h.warnings small.warnings⟩

end Tally

def Metric.AtMost (m other : Metric) : Prop := ∃ n k, n ≤ k ∧ m.Shows n ∧ other.Shows k

namespace Registry

structure Shows (r : Registry) (t : Tally) : Prop where
  total : r.total.Shows t.calls
  active : r.active.Shows t.active
  duration : r.duration.state.lookup "count" = some (.int t.timed)
  success : r.success.Shows t.successes
  failed : r.failed.Shows t.failures
  diagnostics : r.diagnostics.Shows t.diagnostics
  warnings : r.warnings.Shows t.warnings

structure AtMost (r s : Registry) : Prop where
  total : r.total.AtMost s.total
  success : r.success.AtMost s.success
  failed : r.failed.AtMost s.failed
  diagnostics : r.diagnostics.AtMost s.diagnostics
  warnings : r.warnings.AtMost s.warnings

structure StandsAt (r : Registry) (t : Tally) : Prop where
  total : r.total.StandsAt t.calls
  active : r.active.StandsAt t.active
  duration : r.duration.Saw t.timed
  success : r.success.StandsAt t.successes
  failed : r.failed.StandsAt t.failures
  diagnostics : r.diagnostics.StandsAt t.diagnostics
  warnings : r.warnings.StandsAt t.warnings

variable {r s : Registry} {t u : Tally}

theorem standsAt_empty : StandsAt {} {} where
  total := .inl rfl
  active := .inr rfl
  duration := ⟨0.0, 1.0 / 0.0, -1.0 / 0.0, rfl⟩
  success := .inl rfl
  failed := .inl rfl
  diagnostics := .inl rfl
  warnings := .inl rfl

theorem StandsAt.shows (h : r.StandsAt t) (small : t.Small) (idle : t.active = 0) : r.Shows t where
  total := h.total.shows small.calls
  active := h.active.shows (idle ▸ by decide)
  duration := h.duration.count
  success := h.success.shows small.successes
  failed := h.failed.shows small.failures
  diagnostics := h.diagnostics.shows small.diagnostics
  warnings := h.warnings.shows small.warnings

theorem StandsAt.atMost (h : r.StandsAt t) (h' : s.StandsAt u) (small : u.Small) (le : t.AtMost u) :
    r.AtMost s := by
  have small' := le.small small
  exact {
    total := ⟨_, _, le.calls, h.total.shows small'.calls, h'.total.shows small.calls⟩
    success := ⟨_, _, le.successes, h.success.shows small'.successes, h'.success.shows small.successes⟩
    failed := ⟨_, _, le.failures, h.failed.shows small'.failures, h'.failed.shows small.failures⟩
    diagnostics := ⟨_, _, le.diagnostics, h.diagnostics.shows small'.diagnostics,
      h'.diagnostics.shows small.diagnostics⟩
    warnings := ⟨_, _, le.warnings, h.warnings.shows small'.warnings, h'.warnings.shows small.warnings⟩ }

end Registry

/-- States of the metrics that each stand at some tally, up to a last one, none above a later one. -/
structure Kept (ps : List Registry) (t : Tally) : Prop where
  stands : ∀ p ∈ ps, ∃ u, p.StandsAt u ∧ u.AtMost t
  grows : ps.Pairwise Registry.AtMost

namespace Kept

variable {ps : List Registry} {p : Registry} {t u : Tally}

theorem single (h : p.StandsAt t) : Kept [p] t := by
  refine ⟨?_, List.pairwise_singleton _ _⟩
  simp only [List.mem_singleton]
  rintro q rfl
  exact ⟨t, h, .refl t⟩

theorem snoc (h : Kept ps t) (last : p.StandsAt u) (le : t.AtMost u) (small : u.Small) :
    Kept (ps ++ [p]) u := by
  constructor
  · simp only [List.mem_append, List.mem_singleton]
    rintro q (earlier | rfl)
    · obtain ⟨v, stands, le'⟩ := h.stands q earlier
      exact ⟨v, stands, le'.trans le⟩
    · exact ⟨u, last, .refl u⟩
  · rw [List.pairwise_append]
    refine ⟨h.grows, List.pairwise_singleton _ _, ?_⟩
    simp only [List.mem_singleton]
    rintro q earlier p rfl
    obtain ⟨v, stands, le'⟩ := h.stands q earlier
    exact stands.atMost last small (le'.trans le)

end Kept

namespace Compiler

section registry

variable {c : Compiler} {context : Context} {w : Workshop}

def recorded (entries : List Report.Entry) (r : Registry) : Registry :=
  { r with
    diagnostics := r.diagnostics.add entries.length
    warnings := r.warnings.add (warningsIn entries) }

theorem apart_registry : Apart Workshop.registry :=
  ⟨fun _ _ _ => rfl, fun _ _ => rfl, fun _ _ => rfl⟩

theorem leaves_makeFolder (c : Compiler) : Leaves Workshop.registry c.makeFolder := by
  intro w
  obtain ⟨kind, ran⟩ | ⟨place, -, ran⟩ := run_makeFolder_cases c w <;> rw [ran]

theorem leaves_store (c : Compiler) (context : Context) (folder : String) :
    Leaves Workshop.registry (c.store context folder) := by
  refine Leaves.bind (fun w => ?_) fun _ => (apart_registry.log _ _ _).bind fun _ => leaves_pure _
  obtain ⟨failure, -, ran⟩ | ⟨place, -, ran⟩ :=
    run_writeSource_cases (c.sourceFile context folder) context.source w <;> rw [ran]

theorem leaves_resolveAll (c : Compiler) (context : Context) (folder : String) :
    Leaves Workshop.registry (c.resolveAll folder context) := by
  intro w
  have kept := apart_registry.resolveEach c context w
  rcases hr : (c.resolveEach context).run.run w with ⟨failure | ds, v⟩ <;> rw [hr] at kept
  · rw [run_resolveAll_error hr]
    dsimp only at kept ⊢
    cases failure.isAnnounced with
    | true => exact kept
    | false => exact kept
  · rw [run_resolveAll_ok hr]
    exact kept

theorem leaves_toEmission (c : Compiler) (context : Context) :
    Leaves Workshop.registry (c.toEmission context) :=
  (leaves_makeFolder c).bind fun folder => (leaves_store c context folder).bind fun path =>
    (leaves_resolveAll c context folder).bind fun ds =>
      (apart_registry.emitInto c context path ds).bind fun _ => leaves_pure _

def entriesFor (ds : List Diagnostic) : List Report.Entry :=
  (ds.mapM Report.Entry.ofDiagnostic).toOption.getD []

theorem registry_judge (c : Compiler) (context : Context) (r : Emitted) (v : Workshop) :
    ((c.judge context r).run.run v).2.registry = v.registry ∧ entriesFor r.emission.diagnostics = [] ∨
      ((c.judge context r).run.run v).2.registry =
        recorded (entriesFor r.emission.diagnostics) v.registry := by
  unfold judge entriesFor
  rw [run_bind]
  unfold entriesOf
  cases r.emission.diagnostics.mapM Report.Entry.ofDiagnostic with
  | error issues => exact .inl ⟨rfl, rfl⟩
  | ok entries =>
    refine .inr ?_
    have noted : Leaves Workshop.registry (noteWarnings entries >>= fun _ => c.conclude context r entries) :=
      (apart_registry.noteWarnings entries).bind fun _ => apart_registry.conclude c context r entries
    exact noted { v with registry := recorded entries v.registry }

/-- What the steps of a compilation count: the entries of what it emitted, at most once. -/
def reported (c : Compiler) (context : Context) (w : Workshop) : List Report.Entry :=
  match ((c.toEmission context).run.run (c.enter context w).1).1 with
  | .ok r => entriesFor r.emission.diagnostics
  | .error _ => []

theorem registry_carryOut (c : Compiler) (context : Context) (w : Workshop) :
    ((c.carryOut context).run.run (c.enter context w).1).2.registry = (c.enter context w).1.registry ∧
        c.reported context w = [] ∨
      ((c.carryOut context).run.run (c.enter context w).1).2.registry =
        recorded (c.reported context w) (c.enter context w).1.registry := by
  have kept := leaves_toEmission c context (c.enter context w).1
  unfold carryOut reported
  rw [run_bind]
  rcases hr : (c.toEmission context).run.run (c.enter context w).1 with ⟨failure | r, v⟩ <;>
    rw [hr] at kept
  · exact .inl ⟨kept, rfl⟩
  · dsimp only at kept ⊢
    rw [← kept]
    exact registry_judge c context r v

theorem registry_compile (c : Compiler) (context : Context) (w : Workshop) :
    ((c.compile context).run w).2.registry =
      count ((c.carryOut context).run.run (c.enter context w).1).2.elapsed
        ((c.carryOut context).run.run (c.enter context w).1).2.registry
        ((c.compile context).run w).1 := by
  rw [run_compile, leave]

end registry

def isReturned : Except Failure Product → Bool
  | .ok _ => true
  | .error _ => false

def isAnnounced : Except Failure Product → Bool
  | .ok _ => false
  | .error f => f.isAnnounced

structure Call where
  compiler : Compiler
  context : Context
  workshop : Workshop

namespace Call

def result (k : Call) : Except Failure Product :=
  ((k.compiler.compile k.context).run k.workshop).1

def after (k : Call) : Workshop := ((k.compiler.compile k.context).run k.workshop).2

def reported (k : Call) : List Report.Entry := k.compiler.reported k.context k.workshop

def returned (k : Call) : Bool := isReturned k.result

def announced (k : Call) : Bool := isAnnounced k.result

def begun (k : Call) : Workshop := (k.compiler.enter k.context k.workshop).1

def carried (k : Call) : Workshop := ((k.compiler.carryOut k.context).run.run k.begun).2

def moments (k : Call) : List Registry := [k.begun.registry, k.carried.registry, k.after.registry]

end Call

def tallyOf (ks : List Call) : Tally where
  calls := ks.length
  active := 0
  timed := ks.length
  successes := ks.countP Call.returned
  failures := ks.countP Call.announced
  diagnostics := (ks.flatMap Call.reported).length
  warnings := warningsIn (ks.flatMap Call.reported)

/-- Calls one after another, from one state of the metrics to another. Between two calls all else may
change. -/
inductive Sequence (start : Registry) : List Call → Registry → Prop
  | none : Sequence start [] start
  | call {ks : List Call} {r : Registry} (before : Sequence start ks r) (k : Call)
      (undisturbed : k.workshop.registry = r) : Sequence start (ks ++ [k]) k.after.registry

section accounts

variable {ks : List Call} {k : Call} {r : Registry} {t : Tally}

theorem warningsIn_le (entries : List Report.Entry) : warningsIn entries ≤ entries.length :=
  List.length_filter_le _ _

theorem warningsIn_append (before after : List Report.Entry) :
    warningsIn (before ++ after) = warningsIn before + warningsIn after := by
  simp [warningsIn]

theorem small_tallyOf (calls : ks.length < limit)
    (diagnostics : (ks.flatMap Call.reported).length < limit) : (tallyOf ks).Small where
  calls := calls
  successes := Nat.lt_of_le_of_lt List.countP_le_length calls
  failures := Nat.lt_of_le_of_lt List.countP_le_length calls
  diagnostics := diagnostics
  warnings := Nat.lt_of_le_of_lt (warningsIn_le _) diagnostics

def entered (t : Tally) : Tally := { t with calls := t.calls + 1, active := t.active + 1 }

def noted (t : Tally) (entries : List Report.Entry) : Tally :=
  { t with
    diagnostics := t.diagnostics + entries.length
    warnings := t.warnings + warningsIn entries }

theorem standsAt_begun (h : k.workshop.registry.StandsAt t) (idle : t.active = 0)
    (small : t.calls + 1 < limit) : k.begun.registry.StandsAt (entered t) :=
  { h with
    total := h.total.add small
    active := h.active.add (by rw [idle]; decide) }

theorem standsAt_recorded (h : r.StandsAt t) {entries : List Report.Entry}
    (small : (noted t entries).Small) : (recorded entries r).StandsAt (noted t entries) :=
  { h with
    diagnostics := h.diagnostics.add small.diagnostics
    warnings := h.warnings.add small.warnings }

theorem registry_carried (k : Call) :
    k.carried.registry = k.begun.registry ∧ k.reported = [] ∨
      k.carried.registry = recorded k.reported k.begun.registry := by
  unfold Call.carried Call.reported Call.begun
  exact registry_carryOut k.compiler k.context k.workshop

theorem standsAt_carried (h : k.begun.registry.StandsAt t) (small : (noted t k.reported).Small) :
    k.carried.registry.StandsAt (noted t k.reported) := by
  obtain ⟨kept, nothing⟩ | changed := registry_carried k
  · rw [kept, nothing]
    exact h
  · rw [changed]
    exact standsAt_recorded h small

def ended (t : Tally) (result : Except Failure Product) : Tally :=
  { t with
    active := 0
    timed := t.timed + 1
    successes := t.successes + (isReturned result).toNat
    failures := t.failures + (isAnnounced result).toNat }

theorem standsAt_count (h : r.StandsAt t) (one : t.active = 1) (elapsed : Float)
    {result : Except Failure Product} (small : (ended t result).Small) :
    (count elapsed r result).StandsAt (ended t result) := by
  have duration : (r.duration.observe elapsed).Saw (t.timed + 1) := h.duration.observe elapsed
  have active : (r.active.add (-1)).StandsAt 0 := Metric.StandsAt.back (one ▸ h.active)
  cases result with
  | ok product =>
    exact { h with active, duration, success := h.success.add small.successes }
  | error f =>
    unfold count
    cases ha : f.isAnnounced with
    | true =>
      have failures : t.failures + 1 < limit := by
        have bound := small.failures
        rwa [ended, isAnnounced, ha] at bound
      simp only [ended, isAnnounced, ha, if_true]
      exact { h with active, duration, failed := h.failed.add failures }
    | false =>
      simp only [ended, isAnnounced, ha]
      exact { h with active, duration }

theorem registry_after (k : Call) :
    k.after.registry = count k.carried.elapsed k.carried.registry k.result := by
  unfold Call.after Call.carried Call.result Call.begun
  exact registry_compile k.compiler k.context k.workshop

theorem countP_concat (p : Call → Bool) (ks : List Call) (k : Call) :
    (ks ++ [k]).countP p = ks.countP p + (p k).toNat := by
  cases h : p k <;> simp [h]

theorem tallyOf_concat (ks : List Call) (k : Call) :
    tallyOf (ks ++ [k]) = ended (noted (entered (tallyOf ks)) k.reported) k.result := by
  unfold tallyOf
  rw [countP_concat, countP_concat]
  simp [ended, noted, entered, warningsIn_append, Call.returned, Call.announced]

theorem atMost_entered (t : Tally) : t.AtMost (entered t) :=
  ⟨Nat.le_succ _, Nat.le_refl _, Nat.le_refl _, Nat.le_refl _, Nat.le_refl _⟩

theorem atMost_noted (t : Tally) (entries : List Report.Entry) : t.AtMost (noted t entries) :=
  ⟨Nat.le_refl _, Nat.le_refl _, Nat.le_refl _, Nat.le_add_right _ _, Nat.le_add_right _ _⟩

theorem atMost_ended (t : Tally) (result : Except Failure Product) : t.AtMost (ended t result) :=
  ⟨Nat.le_refl _, Nat.le_add_right _ _, Nat.le_add_right _ _, Nat.le_refl _, Nat.le_refl _⟩

theorem atMost_concat (ks : List Call) (k : Call) : (tallyOf ks).AtMost (tallyOf (ks ++ [k])) := by
  rw [tallyOf_concat]
  exact ((atMost_entered _).trans (atMost_noted _ _)).trans (atMost_ended _ _)

def passed (ks : List Call) : List Registry := {} :: ks.flatMap Call.moments

theorem passed_concat (ks : List Call) (k : Call) :
    passed (ks ++ [k]) =
      passed ks ++ [k.begun.registry] ++ [k.carried.registry] ++ [k.after.registry] := by
  simp [passed, Call.moments]

theorem kept_call (h : Kept (passed ks) (tallyOf ks))
    (before : k.workshop.registry.StandsAt (tallyOf ks)) (small : (tallyOf (ks ++ [k])).Small) :
    k.after.registry.StandsAt (tallyOf (ks ++ [k])) ∧
      Kept (passed (ks ++ [k])) (tallyOf (ks ++ [k])) := by
  rw [tallyOf_concat] at small ⊢
  have toEnd := atMost_ended (noted (entered (tallyOf ks)) k.reported) k.result
  have toNotes := atMost_noted (entered (tallyOf ks)) k.reported
  have small₂ := toEnd.small small
  have small₁ := toNotes.small small₂
  have begun := standsAt_begun before rfl small₁.calls
  have carried := standsAt_carried begun small₂
  have after := standsAt_count carried rfl k.carried.elapsed small
  rw [← registry_after] at after
  refine ⟨after, ?_⟩
  rw [passed_concat]
  exact ((h.snoc begun (atMost_entered _) small₁).snoc carried toNotes small₂).snoc after toEnd small

theorem Sequence.kept (run : Sequence {} ks r) (small : (tallyOf ks).Small) :
    r.StandsAt (tallyOf ks) ∧ Kept (passed ks) (tallyOf ks) := by
  induction run with
  | none => exact ⟨Registry.standsAt_empty, Kept.single Registry.standsAt_empty⟩
  | call before k undisturbed ih =>
    obtain ⟨stands, kept⟩ := ih ((atMost_concat _ k).small small)
    rw [← undisturbed] at stands
    exact kept_call kept stands small

end accounts

theorem compile_accounts {ks : List Call} {r : Registry} (run : Sequence {} ks r)
    (calls : ks.length < limit) (diagnostics : (ks.flatMap Call.reported).length < limit) :
    r.Shows (tallyOf ks) ∧ r.warnings.AtMost r.diagnostics ∧
      (passed ks).Pairwise Registry.AtMost := by
  have small := small_tallyOf calls diagnostics
  obtain ⟨stands, kept⟩ := run.kept small
  refine ⟨stands.shows small rfl, ?_, kept.grows⟩
  exact ⟨_, _, warningsIn_le _, stands.warnings.shows small.warnings,
    stands.diagnostics.shows small.diagnostics⟩

/-- A call that returns, and one that is rejected for a warning and an error. -/
theorem compile_accounts_rejected :
    let first : Call :=
      { compiler := {}
        context := { source := "class T: pass\n", className := "T" }
        workshop := { machine := { files := { folders := [["tmp"]] } } } }
    let second : Call :=
      { compiler := {}
        context := { source := "x = 1 is 1\n", className := "U" }
        workshop := first.after }
    second.after.registry.Shows
      { calls := 2, timed := 2, successes := 1, failures := 1, diagnostics := 1, warnings := 1 } := by
  intro first second
  have run : Sequence {} [first, second] second.after.registry :=
    .call (.call .none first rfl) second rfl
  have tally : tallyOf [first, second] =
      { calls := 2, timed := 2, successes := 1, failures := 1, diagnostics := 1, warnings := 1 } := by
    decide +kernel
  have counted (ks : List Call) : (ks.flatMap Call.reported).length = (tallyOf ks).diagnostics := rfl
  have few : ([first, second].flatMap Call.reported).length < limit := by
    rw [counted, tally]
    decide
  have shown := (compile_accounts run (by decide) few).1
  rwa [tally] at shown

end Compiler

end Stencil
