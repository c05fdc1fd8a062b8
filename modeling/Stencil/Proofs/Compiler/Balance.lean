import Stencil.Proofs.Compiler.Accounts

/-!
The balance of outcomes. A call that returns counts as a success, and one that ends with a failure that
the compiler announces counts as failed. A call that ends in any other way is counted in the total
alone, so the counters balance exactly as long as no call ends so (`compile_conserves`).
-/

namespace Stencil

open Number (limit)

def Registry.Balanced (r : Registry) : Prop :=
  ∃ successes failures, r.success.Shows successes ∧ r.failed.Shows failures ∧
    r.total.Shows (successes + failures)

namespace Compiler

def isStray : Except Failure Product → Bool
  | .ok _ => false
  | .error f => !f.isAnnounced

def Call.strayed (k : Call) : Bool := isStray k.result

/-- What the counters of outcomes show after calls. Each counts one by one, and stands still at the
limit of whole doubles. -/
structure Conserves (ks : List Call) (r : Registry) : Prop where
  total : r.total.Shows (min ks.length limit)
  success : r.success.Shows (min (ks.countP Call.returned) limit)
  failed : r.failed.Shows (min (ks.countP Call.announced) limit)
  parts : ks.length =
    ks.countP Call.returned + ks.countP Call.announced + ks.countP Call.strayed
  balanced : ks.length ≤ limit → (r.Balanced ↔ ∀ k ∈ ks, k.strayed = false)

section outcomes

variable {ks : List Call} {r : Registry}

theorem outcome_one (result : Except Failure Product) :
    (isReturned result).toNat + (isAnnounced result).toNat + (isStray result).toNat = 1 := by
  cases result with
  | ok product => rfl
  | error f => cases h : f.isAnnounced <;> simp [isReturned, isAnnounced, isStray, h]

theorem length_eq_outcomes (ks : List Call) : ks.length =
    ks.countP Call.returned + ks.countP Call.announced + ks.countP Call.strayed := by
  induction ks using List.reverseRecOn with
  | nil => rfl
  | append_singleton rest k ih =>
    have one : k.returned.toNat + k.announced.toNat + k.strayed.toNat = 1 := outcome_one k.result
    rw [List.length_append, List.length_singleton, countP_concat, countP_concat, countP_concat]
    omega

theorem count_total (elapsed : Float) (r : Registry) (result : Except Failure Product) :
    (count elapsed r result).total = r.total := by
  cases result with
  | ok product => rfl
  | error f => cases h : f.isAnnounced <;> simp [count, h]

theorem count_success (elapsed : Float) (r : Registry) (result : Except Failure Product) :
    (count elapsed r result).success = if isReturned result then r.success.add 1 else r.success := by
  cases result with
  | ok product => rfl
  | error f => cases h : f.isAnnounced <;> simp [count, isReturned, h]

theorem count_failed (elapsed : Float) (r : Registry) (result : Except Failure Product) :
    (count elapsed r result).failed = if isAnnounced result then r.failed.add 1 else r.failed := by
  cases result with
  | ok product => rfl
  | error f => cases h : f.isAnnounced <;> simp [count, isAnnounced, h]

theorem outcomes_carried (k : Call) :
    k.carried.registry.total = k.workshop.registry.total.add 1 ∧
    k.carried.registry.success = k.workshop.registry.success ∧
    k.carried.registry.failed = k.workshop.registry.failed := by
  obtain ⟨kept, -⟩ | changed := registry_carried k
  · rw [kept]
    exact ⟨rfl, rfl, rfl⟩
  · rw [changed]
    exact ⟨rfl, rfl, rfl⟩

theorem total_after (k : Call) : k.after.registry.total = k.workshop.registry.total.add 1 := by
  rw [registry_after, count_total, (outcomes_carried k).1]

theorem success_after (k : Call) : k.after.registry.success =
    if k.returned then k.workshop.registry.success.add 1 else k.workshop.registry.success := by
  rw [registry_after, count_success, (outcomes_carried k).2.1, Call.returned]

theorem failed_after (k : Call) : k.after.registry.failed =
    if k.announced then k.workshop.registry.failed.add 1 else k.workshop.registry.failed := by
  rw [registry_after, count_failed, (outcomes_carried k).2.2, Call.announced]

theorem standsAt_countP (counter : Registry → Metric) (counts : Call → Bool)
    (fresh : (counter {}).StandsAt 0)
    (step : ∀ k : Call, counter k.after.registry =
      if counts k then (counter k.workshop.registry).add 1 else counter k.workshop.registry)
    (run : Sequence {} ks r) : (counter r).StandsAt (min (ks.countP counts) limit) := by
  induction run with
  | none => exact fresh
  | call before k undisturbed ih =>
    rw [step, undisturbed, countP_concat]
    cases counts k with
    | true => exact ih.next
    | false => exact ih

theorem Sequence.outcomes (run : Sequence {} ks r) :
    r.total.StandsAt (min ks.length limit) ∧
    r.success.StandsAt (min (ks.countP Call.returned) limit) ∧
    r.failed.StandsAt (min (ks.countP Call.announced) limit) := by
  have total := standsAt_countP Registry.total (fun _ => true) (.inl rfl) total_after run
  rw [List.countP_true] at total
  exact ⟨total, standsAt_countP Registry.success Call.returned (.inl rfl) success_after run,
    standsAt_countP Registry.failed Call.announced (.inl rfl) failed_after run⟩

theorem balanced_iff (run : Sequence {} ks r) (few : ks.length ≤ limit) :
    r.Balanced ↔ ∀ k ∈ ks, k.strayed = false := by
  obtain ⟨total, success, failed⟩ := run.outcomes
  have parts := length_eq_outcomes ks
  have none : (∀ k ∈ ks, k.strayed = false) ↔ ks.countP Call.strayed = 0 := by
    simp only [List.countP_eq_zero, Bool.not_eq_true]
  rw [none]
  constructor
  · rintro ⟨successes, failures, hs, hf, ht⟩
    rw [success.shows_iff (Nat.min_le_right _ _)] at hs
    rw [failed.shows_iff (Nat.min_le_right _ _)] at hf
    rw [total.shows_iff (Nat.min_le_right _ _)] at ht
    omega
  · intro none
    refine ⟨_, _, (success.shows_iff (Nat.min_le_right _ _)).2 rfl,
      (failed.shows_iff (Nat.min_le_right _ _)).2 rfl, ?_⟩
    rw [total.shows_iff (Nat.min_le_right _ _)]
    omega

end outcomes

theorem compile_conserves {ks : List Call} {r : Registry} (run : Sequence {} ks r) :
    Conserves ks r where
  total := (run.outcomes.1.shows_iff (Nat.min_le_right _ _)).2 rfl
  success := (run.outcomes.2.1.shows_iff (Nat.min_le_right _ _)).2 rfl
  failed := (run.outcomes.2.2.shows_iff (Nat.min_le_right _ _)).2 rfl
  parts := length_eq_outcomes ks
  balanced := balanced_iff run

/-- A call that returns, one that is rejected, and one whose scratch folder cannot be made. -/
theorem compile_conserves_folderless :
    let first : Call :=
      { compiler := {}
        context := { source := "class T: pass\n", className := "T" }
        workshop := { machine := { files := { folders := [["tmp"]] } } } }
    let second : Call :=
      { compiler := {}
        context := { source := "x = 1\n", className := "U" }
        workshop := first.after }
    let third : Call :=
      { compiler := { config := { root := some "/nowhere" } }
        context := { source := "class V: pass\n", className := "V" }
        workshop := second.after }
    Sequence {} [first, second, third] third.after.registry ∧
      Conserves [first, second, third] third.after.registry ∧
      [first, second, third].map (fun k => (k.returned, k.announced, k.strayed)) =
        [(true, false, false), (false, true, false), (false, false, true)] := by
  intro first second third
  have run : Sequence {} [first, second, third] third.after.registry :=
    .call (.call (.call .none first rfl) second rfl) third rfl
  refine ⟨run, compile_conserves run, ?_⟩
  decide +kernel

/-- A call whose scratch folder cannot be made ends with an error of the system, and is counted neither
as a success nor as failed. -/
theorem compile_uncounted :
    let k : Call :=
      { compiler := { config := { root := some "/nowhere" } }
        context := { source := "class T: pass\n", className := "T" }
        workshop := { machine := {} } }
    Sequence {} [k] k.after.registry ∧ (k.returned, k.announced, k.strayed) = (false, false, true) ∧
      ¬k.after.registry.Balanced := by
  intro k
  have run : Sequence {} [k] k.after.registry := .call .none k rfl
  have ended : (k.returned, k.announced, k.strayed) = (false, false, true) := by decide +kernel
  have strayed : k.strayed = true := (Prod.mk.inj (Prod.mk.inj ended).2).2
  refine ⟨run, ended, ?_⟩
  rw [balanced_iff run (by decide)]
  intro none
  rw [none k (List.mem_singleton_self k)] at strayed
  cases strayed

end Compiler

end Stencil
