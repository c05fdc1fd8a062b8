import Stencil.Proofs.Compiler.Accounts

/-!
What callers are handed, and what is counted of it. A call that returns or is rejected hands over the
entries of all diagnostics, and those are counted. The one entry more that says that the class is missing
is handed over and not counted, so the counters agree with what callers get exactly as long as no class
is missing (`compile_tallies`).
-/

namespace Stencil

open Number (limit)

structure Registry.Noted (r : Registry) (entries : List Report.Entry) : Prop where
  diagnostics : r.diagnostics.StandsAt entries.length
  warnings : r.warnings.StandsAt (Compiler.warningsIn entries)

namespace Compiler

def deliveredBy : Except Failure Product → List Report.Entry
  | .ok product => product.artifacts.warnings
  | .error (.rejected report _) => report.entries
  | .error _ => []

def isAnswer : Except Failure Product → Bool
  | .ok _ | .error (.rejected _ _) => true
  | .error _ => false

def isRejected : Except Failure Product → Bool
  | .error (.rejected _ _) => true
  | _ => false

namespace Call

def delivered (k : Call) : List Report.Entry := deliveredBy k.result

def answered (k : Call) : Bool := isAnswer k.result

def emitted? (k : Call) : Option Emitted :=
  ((k.compiler.toEmission k.context).run.run k.begun).1.toOption

def lacking (k : Call) : Bool :=
  match k.emitted? with
  | some r => r.emission.success && isRejected k.result
  | none => false

end Call

section delivery

variable {c : Compiler} {context : Context} {r : Emitted} {entries : List Report.Entry}
  {m : Script.Machine}

/-- An answer hands over the entries of all diagnostics, and one more only for a missing class. -/
theorem verdict_delivers (answer : isAnswer (c.verdict context r entries m) = true) :
    (r.emission.success && isRejected (c.verdict context r entries m)) = false ∧
        deliveredBy (c.verdict context r entries m) = entries ∨
      (r.emission.success && isRejected (c.verdict context r entries m)) = true ∧
        deliveredBy (c.verdict context r entries m) =
          entries ++ [missingEntry context.className r.path] := by
  cases hs : r.emission.success with
  | false =>
    obtain ⟨report, artifacts, result, he⟩ := verdict_of_failure hs
    rw [result]
    exact .inl ⟨rfl, he⟩
  | true =>
    cases hu : r.emission.isUncollectible with
    | true =>
      rw [verdict_of_uncollectible hs hu] at answer
      cases answer
    | false =>
      rcases ht : r.builder.typeNamed m (c.moduleName context) with message | _ | cls
      · rw [verdict_of_blocked hs hu ht] at answer
        cases answer
      · obtain ⟨report, artifacts, result, he⟩ := verdict_of_missing hs hu ht
        rw [result]
        exact .inr ⟨rfl, he⟩
      · obtain ⟨product, result, -, he⟩ := verdict_of_found hs hu ht
        rw [result]
        exact .inl ⟨rfl, he⟩

end delivery

section answers

variable {c : Compiler} {context : Context} {r : Emitted} {w w' : Workshop}

theorem not_answer_of_failed {f : Failure}
    (h : (c.toEmission context).run.run (c.enter context w).1 = (.error f, w')) :
    isAnswer ((c.compile context).run w).1 = false := by
  rw [compile_eq, carryOut, run_bind, h]
  have bare := fails_toEmission c context _ _ _ h
  cases f with
  | rejected report artifacts => cases bare
  | _ => rfl

theorem compile_eq_invalid {issues : List Report.Issue}
    (h : (c.toEmission context).run.run (c.enter context w).1 = (.ok r, w'))
    (hr : r.emission.diagnostics.mapM Report.Entry.ofDiagnostic = .error issues) :
    ((c.compile context).run w).1 = .error (.invalidEntry issues) := by
  rw [compile_eq, carryOut, run_bind, h]
  dsimp only
  unfold judge entriesOf
  rw [hr]
  rfl

theorem reported_of_emitted {entries : List Report.Entry}
    (h : (c.toEmission context).run.run (c.enter context w).1 = (.ok r, w'))
    (hr : r.emission.diagnostics.mapM Report.Entry.ofDiagnostic = .ok entries) :
    c.reported context w = entries := by
  unfold reported
  rw [h]
  dsimp only
  rw [entriesFor, hr]
  rfl

end answers

/-- An answer hands over what the call counted, and one entry more only if the class is missing. -/
theorem delivered_cases (k : Call) (answer : k.answered = true) :
    k.lacking = false ∧ k.delivered = k.reported ∨
      k.lacking = true ∧
        ∃ path, k.delivered = k.reported ++ [missingEntry k.context.className path] := by
  obtain ⟨c, context, w⟩ := k
  unfold Call.answered Call.result at answer
  unfold Call.lacking Call.emitted? Call.delivered Call.reported Call.result Call.begun
  dsimp only at answer ⊢
  rcases h : (c.toEmission context).run.run (c.enter context w).1 with ⟨f | r, w'⟩
  · rw [not_answer_of_failed h] at answer
    cases answer
  · cases hr : r.emission.diagnostics.mapM Report.Entry.ofDiagnostic with
    | error issues =>
      rw [compile_eq_invalid h hr] at answer
      cases answer
    | ok entries =>
      rw [compile_eq_verdict h hr] at answer ⊢
      rw [reported_of_emitted h hr]
      obtain ⟨whole, same⟩ | ⟨missing, more⟩ := verdict_delivers answer
      · exact .inl ⟨whole, same⟩
      · exact .inr ⟨missing, r.path, more⟩

section sums

variable {ks : List Call} {k : Call} {r : Registry} {entries : List Report.Entry}

theorem warningsIn_missingEntry (className path : String) :
    warningsIn [missingEntry className path] = 0 := rfl

theorem delivered_counts (answer : k.answered = true) :
    k.delivered.length = k.reported.length + k.lacking.toNat ∧
      warningsIn k.delivered = warningsIn k.reported := by
  obtain ⟨whole, same⟩ | ⟨missing, path, more⟩ := delivered_cases k answer
  · simp [whole, same]
  · simp [missing, more, warningsIn_append, warningsIn_missingEntry]

theorem sum_delivered (answered : ∀ k ∈ ks, k.answered = true) :
    (ks.flatMap Call.delivered).length =
        (ks.flatMap Call.reported).length + ks.countP Call.lacking ∧
      warningsIn (ks.flatMap Call.delivered) = warningsIn (ks.flatMap Call.reported) := by
  induction ks using List.reverseRecOn with
  | nil => simp
  | append_singleton rest k ih =>
    rw [List.forall_mem_append, List.forall_mem_singleton] at answered
    obtain ⟨lengths, warnings⟩ := ih answered.1
    obtain ⟨length, warning⟩ := delivered_counts answered.2
    simp only [List.flatMap_append, List.flatMap_singleton, List.length_append, warningsIn_append]
    rw [countP_concat]
    constructor <;> omega

theorem count_diagnostics (elapsed : Float) (r : Registry) (result : Except Failure Product) :
    (count elapsed r result).diagnostics = r.diagnostics := by
  cases result with
  | ok product => rfl
  | error f => cases h : f.isAnnounced <;> simp [count, h]

theorem count_warnings (elapsed : Float) (r : Registry) (result : Except Failure Product) :
    (count elapsed r result).warnings = r.warnings := by
  cases result with
  | ok product => rfl
  | error f => cases h : f.isAnnounced <;> simp [count, h]

theorem noted_after (before : k.workshop.registry.Noted entries)
    (few : (entries ++ k.reported).length < limit) :
    k.after.registry.Noted (entries ++ k.reported) := by
  have begun : k.begun.registry.Noted entries := ⟨before.diagnostics, before.warnings⟩
  have carried : k.carried.registry.Noted (entries ++ k.reported) := by
    obtain ⟨kept, nothing⟩ | changed := registry_carried k
    · rw [kept, nothing, List.append_nil]
      exact begun
    · have fewWarnings := Nat.lt_of_le_of_lt (warningsIn_le _) few
      rw [List.length_append] at few
      rw [warningsIn_append] at fewWarnings
      rw [changed]
      constructor
      · rw [List.length_append]
        exact begun.diagnostics.add few
      · rw [warningsIn_append]
        exact begun.warnings.add fewWarnings
  constructor
  · rw [registry_after, count_diagnostics]
    exact carried.diagnostics
  · rw [registry_after, count_warnings]
    exact carried.warnings

theorem Sequence.noted (run : Sequence {} ks r) (few : (ks.flatMap Call.reported).length < limit) :
    r.Noted (ks.flatMap Call.reported) := by
  induction run with
  | none => exact ⟨.inl rfl, .inl rfl⟩
  | @call ks r before k undisturbed ih =>
    have split : (ks ++ [k]).flatMap Call.reported = ks.flatMap Call.reported ++ k.reported := by
      simp
    rw [split] at few ⊢
    refine noted_after ?_ few
    rw [undisturbed]
    rw [List.length_append] at few
    exact ih (by omega)

structure Tallies (ks : List Call) (r : Registry) : Prop where
  warnings : r.warnings.Shows (warningsIn (ks.flatMap Call.delivered))
  /-- The entry that says that a class is missing is handed over and not counted. -/
  diagnostics : ∃ counted, r.diagnostics.Shows counted ∧
    counted + ks.countP Call.lacking = (ks.flatMap Call.delivered).length
  agrees : r.diagnostics.Shows (ks.flatMap Call.delivered).length ↔ ∀ k ∈ ks, k.lacking = false

theorem tallies_of_noted (stands : r.Noted (ks.flatMap Call.reported))
    (answered : ∀ k ∈ ks, k.answered = true) (few : (ks.flatMap Call.delivered).length < limit) :
    Tallies ks r := by
  obtain ⟨lengths, warnings⟩ := sum_delivered answered
  have fewer : (ks.flatMap Call.reported).length < limit := by omega
  have fewWarnings := Nat.lt_of_le_of_lt (warningsIn_le (ks.flatMap Call.reported)) fewer
  refine ⟨?_, ⟨_, stands.diagnostics.shows fewer, lengths.symm⟩, ?_⟩
  · rw [warnings]
    exact stands.warnings.shows fewWarnings
  · have none : (∀ k ∈ ks, k.lacking = false) ↔ ks.countP Call.lacking = 0 := by
      simp only [List.countP_eq_zero, Bool.not_eq_true]
    rw [stands.diagnostics.shows_iff (Nat.le_of_lt fewer), none]
    omega

end sums

theorem compile_tallies {ks : List Call} {r : Registry} (run : Sequence {} ks r)
    (answered : ∀ k ∈ ks, k.answered = true) (few : (ks.flatMap Call.delivered).length < limit) :
    Tallies ks r := by
  have fewer : (ks.flatMap Call.reported).length < limit := by
    have lengths := (sum_delivered answered).1
    omega
  exact tallies_of_noted (run.noted fewer) answered few

/-- A call that returns with a warning, and one that is rejected for a missing class with a warning. -/
theorem compile_tallies_classless :
    let first : Call :=
      { compiler := {}
        context := { source := "class T: pass\nx = 1 is 1\n", className := "T" }
        workshop := { machine := { files := { folders := [["tmp"]] } } } }
    let second : Call :=
      { compiler := {}
        context := { source := "x = 1 is 1\n", className := "U" }
        workshop := first.after }
    Tallies [first, second] second.after.registry ∧
      [first, second].map (fun k => (k.answered, k.delivered.length, k.lacking)) =
        [(true, 1, false), (true, 2, true)] := by
  intro first second
  have run : Sequence {} [first, second] second.after.registry :=
    .call (.call .none first rfl) second rfl
  have seen : [first, second].map (fun k => (k.answered, k.delivered.length, k.lacking)) =
      [(true, 1, false), (true, 2, true)] := by decide +kernel
  obtain ⟨⟨answered₁, one, -⟩, answered₂, two, -⟩ := by
    simpa only [List.map_cons, List.map_nil, List.cons.injEq, Prod.mk.injEq, and_true] using seen
  have answered : ∀ k ∈ [first, second], k.answered = true := by
    simp only [List.forall_mem_cons]
    exact ⟨answered₁, answered₂, List.forall_mem_nil _⟩
  have few : ([first, second].flatMap Call.delivered).length < limit := by
    simp only [List.flatMap_cons, List.flatMap_nil, List.length_append, one, two]
    decide
  exact ⟨compile_tallies run answered few, seen⟩

/-- A source without its class is rejected with one entry, and the counter does not show it. -/
theorem compile_untallied :
    let k : Call :=
      { compiler := {}
        context := { source := "x = 1\n", className := "T" }
        workshop := { machine := { files := { folders := [["tmp"]] } } } }
    Sequence {} [k] k.after.registry ∧ k.answered = true ∧ k.delivered.length = 1 ∧
      ¬k.after.registry.diagnostics.Shows 1 := by
  intro k
  have run : Sequence {} [k] k.after.registry := .call .none k rfl
  have answered : k.answered = true := by decide +kernel
  have one : k.delivered.length = 1 := by decide +kernel
  have nothing : ([k].flatMap Call.reported).length = 0 := by decide +kernel
  refine ⟨run, answered, one, ?_⟩
  have stands := (run.noted (by rw [nothing]; decide)).diagnostics
  rw [nothing] at stands
  rw [stands.shows_iff (by decide)]
  decide

end Compiler

end Stencil
