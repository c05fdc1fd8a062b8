import Mathlib.Data.List.Perm.Basic
import Stencil.Proofs.Emission.Report

/-!
The order of a report. Faults are reported when they happen and warnings at the end of their stage,
so a report is in the order of its events if, within every stage, no warning about the unit comes
before a fault (`emit_in_order_iff`).
-/

namespace Stencil.Emission

open Script

namespace Event

def isOwn (own : List String) : Event → Bool
  | warned w => Emission.isOwn own w
  | _ => false

end Event

def voiced (es : List Event) : List Diagnostic := (wordings es).filterMap Wording.diagnostic?

/-- Puts diagnostics where the warnings about the unit were issued, among the faults. -/
def weave (own : List String) : List Event → List Diagnostic → List Diagnostic
  | [], ds => ds
  | x :: es, ds =>
    match x.isOwn own, ds with
    | true, d :: ds => d :: weave own es ds
    | _, ds => x.fault?.toList ++ weave own es ds

def chronicle (own : List String) (es : List Event) : List Diagnostic := weave own es (voiced es)

def FaultsFirst (own : List String) (es : List Event) : Prop :=
  es.Pairwise fun earlier later => earlier.isOwn own = true → later.fault? = none

section weave

variable {own : List String} {x : Event} {es later : List Event} {d : Diagnostic}
  {ds others : List Diagnostic}

theorem weave_cons_own (h : x.isOwn own = true) :
    weave own (x :: es) (d :: ds) = d :: weave own es ds := by
  simp only [weave, h]

theorem weave_cons (h : x.isOwn own = false) :
    weave own (x :: es) ds = x.fault?.toList ++ weave own es ds := by
  simp only [weave, h]

theorem fault?_of_isOwn (h : x.isOwn own = true) : x.fault? = none := by
  cases x <;> first | rfl | cases h

theorem faults_cons (x : Event) (es : List Event) : faults (x :: es) = x.fault?.toList ++ faults es := by
  rw [faults, List.filterMap_cons]
  cases x.fault? <;> rfl

def Matched (own : List String) (es : List Event) (ds : List Diagnostic) : Prop :=
  ds.length = es.countP (Event.isOwn own)

theorem of_matched_cons (h : Matched own (x :: es) ds) (own' : x.isOwn own = true) :
    ∃ d rest, ds = d :: rest ∧ Matched own es rest := by
  rw [Matched, List.countP_cons_of_pos own'] at h
  obtain ⟨d, rest, rfl⟩ := List.exists_cons_of_length_eq_add_one h
  exact ⟨d, rest, rfl, Nat.succ.inj h⟩

theorem matched_cons (h : Matched own (x :: es) ds) (other : x.isOwn own = false) :
    Matched own es ds := by
  rwa [Matched, List.countP_cons_of_neg (by simp [other])] at h

theorem weave_append (h : Matched own es ds) :
    weave own (es ++ later) (ds ++ others) = weave own es ds ++ weave own later others := by
  induction es generalizing ds with
  | nil =>
    obtain rfl := List.eq_nil_of_length_eq_zero h
    rfl
  | cons x es ih =>
    cases hx : x.isOwn own with
    | false =>
      rw [List.cons_append, weave_cons hx, weave_cons hx, ih (matched_cons h hx), List.append_assoc]
    | true =>
      obtain ⟨d, rest, rfl, matched⟩ := of_matched_cons h hx
      rw [List.cons_append, List.cons_append, weave_cons_own hx, weave_cons_own hx, ih matched]
      rfl

theorem perm_weave (h : Matched own es ds) : (faults es ++ ds).Perm (weave own es ds) := by
  induction es generalizing ds with
  | nil => exact .refl _
  | cons x es ih =>
    rw [faults_cons]
    cases hx : x.isOwn own with
    | false =>
      rw [weave_cons hx, List.append_assoc]
      exact (ih (matched_cons h hx)).append_left _
    | true =>
      obtain ⟨d, rest, rfl, matched⟩ := of_matched_cons h hx
      rw [weave_cons_own hx, fault?_of_isOwn hx]
      exact List.perm_middle.trans ((ih matched).cons d)

theorem eq_weave_iff (h : Matched own es ds) (mild : ∀ d ∈ ds, d.isError = false)
    (severe : ∀ d ∈ faults es, d.isError = true) :
    faults es ++ ds = weave own es ds ↔ FaultsFirst own es := by
  induction es generalizing ds with
  | nil => exact ⟨fun _ => .nil, fun _ => rfl⟩
  | cons x es ih =>
    rw [faults_cons, List.forall_mem_append] at severe
    rw [faults_cons, FaultsFirst, List.pairwise_cons]
    cases hx : x.isOwn own with
    | false =>
      rw [weave_cons hx, List.append_assoc, List.append_cancel_left_eq,
        ih (matched_cons h hx) mild severe.2]
      simp [FaultsFirst]
    | true =>
      obtain ⟨d, rest, rfl, matched⟩ := of_matched_cons h hx
      rw [List.forall_mem_cons] at mild
      rw [weave_cons_own hx, fault?_of_isOwn hx, Option.toList_none, List.nil_append]
      cases hf : faults es with
      | nil =>
        have silent : ∀ event ∈ es, event.fault? = none := List.filterMap_eq_nil_iff.1 hf
        have tail := ih matched mild.2 severe.2
        rw [hf, List.nil_append] at tail
        rw [List.nil_append, List.cons_inj_right, tail]
        exact ⟨fun first => ⟨fun event he _ => silent event he, first⟩, And.right⟩
      | cons f others =>
        -- the fault that comes last heads the report, and the warning heads the chronicle
        constructor
        · intro heads
          rw [List.cons_append, List.cons_eq_cons] at heads
          have error := severe.2 f (hf ▸ List.mem_cons_self)
          rw [heads.1, mild.1] at error
          cases error
        · rintro ⟨faultless, -⟩
          have none : faults es = [] :=
            List.filterMap_eq_nil_iff.2 fun event he => faultless event he rfl
          rw [hf] at none
          cases none

end weave

@[simp] theorem voiced_append (es later : List Event) :
    voiced (es ++ later) = voiced es ++ voiced later := by
  simp [voiced]

theorem chronicle_flatten {own : List String} {ess : List (List Event)}
    (h : ∀ es ∈ ess, Matched own es (voiced es)) :
    chronicle own ess.flatten = ess.flatMap (chronicle own) := by
  induction ess with
  | nil => rfl
  | cons es rest ih =>
    rw [List.forall_mem_cons] at h
    rw [List.flatten_cons, List.flatMap_cons, ← ih h.2, chronicle, voiced_append, weave_append h.1]
    rfl

structure Accounted (own : List String) (es : List Event) : Prop where
  found : found es = faults es ++ voiced es
  matched : Matched own es (voiced es)
  severe : ∀ d ∈ faults es, d.isError = true

theorem isError_of_mem_voiced {es : List Event} {d : Diagnostic} (h : d ∈ voiced es) :
    d.isError = false := by
  obtain ⟨t, -, ht⟩ := List.mem_filterMap.1 h
  exact (t.id_of_diagnostic? ht).2

theorem flatMap_found_eq_iff {own : List String} {ess : List (List Event)}
    (h : ∀ es ∈ ess, Accounted own es) :
    ess.flatMap found = ess.flatMap (chronicle own) ↔ ∀ es ∈ ess, FaultsFirst own es := by
  induction ess with
  | nil => simp
  | cons es rest ih =>
    rw [List.forall_mem_cons] at h
    obtain ⟨first, others⟩ := h
    have perm := perm_weave first.matched
    have here := eq_weave_iff first.matched (fun _ => isError_of_mem_voiced) first.severe
    rw [← first.found] at perm here
    rw [List.flatMap_cons, List.flatMap_cons, List.forall_mem_cons, ← here, ← ih others]
    constructor
    · intro same
      exact List.append_inj same perm.length_eq
    · rintro ⟨same, later⟩
      rw [later]
      exact congrArg (· ++ _) same

theorem length_own_warnings (own : List String) (es : List Event) :
    ((warnings es).filter (isOwn own)).length = es.countP (Event.isOwn own) := by
  rw [warnings, List.filter_filterMap, List.length_filterMap_eq_countP]
  refine List.countP_congr fun event _ => ?_
  cases event with
  | warned w => cases h : isOwn own w <;> simp [Event.warning?, Event.isOwn, Option.filter, h]
  | _ => simp [Event.warning?, Event.isOwn]

theorem length_voiced {es : List Event} (h : ∀ t ∈ wordings es, ∃ text, t.text? = some text) :
    (voiced es).length = (wordings es).length := by
  rw [voiced, List.length_filterMap_eq_countP, List.countP_eq_length]
  intro t ht
  obtain ⟨text, said⟩ := h t ht
  rw [Wording.diagnostic?, said]
  rfl

theorem found_eq_of_wordings {es : List Event} (h : wordings es = []) : found es = faults es := by
  rw [found, faults]
  refine List.filterMap_congr fun e he => ?_
  cases e with
  | worded t => cases List.filterMap_eq_nil_iff.1 h _ he
  | _ => rfl

/-- A stage as the report has it: what is gone through in it puts nothing into words, and its drain is without
faults. -/
theorem Stage.accounted {own : List String} {P : Machine → List Event → Prop} {n : Machine}
    {es : List Event} (h : Stage own P n es) (unworded : ∀ o before, P o before → wordings before = [])
    (severe : ∀ d ∈ faults es, d.isError = true) : Accounted own es := by
  obtain ⟨sorted, texts⟩ := h.warnings_eq unworded
  refine ⟨?_, ?_, severe⟩
  · obtain ⟨o, before, after, gone, drained, rfl⟩ := h
    have silent := unworded o before gone
    have aside := drained.aside
    rw [found_append, found_eq_of_wordings silent, found_eq_of_trials aside.trials, faults_append,
      aside.faults, List.append_nil, voiced, wordings_append, silent, List.nil_append]
  · rw [Matched, length_voiced texts, ← length_own_warnings, ← sorted, List.length_map]

theorem Carried.accounted {a : Assembly} {module : Nat} {m : Machine} {c : Course}
    (h : Carried a module m c) : ∀ es ∈ c.stages, Accounted (ownFiles a) es := by
  have severe : ∀ es ∈ c.stages, ∀ d ∈ faults es, d.isError = true := by
    intro es hes d hd
    obtain ⟨event, he, hf⟩ := List.mem_filterMap.1 hd
    exact h.isError d (List.mem_filterMap.2 ⟨event, List.mem_flatten.2 ⟨es, hes, he⟩, hf⟩)
  simp only [Course.stages, List.forall_mem_cons, List.not_mem_nil, false_imp_iff, implies_true,
    and_true] at severe ⊢
  obtain ⟨sl, st, sc, sr⟩ := severe
  obtain ⟨_, _, _, _, _, _, hl, ht, hc, running⟩ := h.gone
  refine ⟨hl.accounted (fun _ _ => Gone.wordings) sl, ht.accounted (fun _ _ => Gone.wordings) st,
    hc.accounted (fun _ _ => Gone.wordings) sc, ?_⟩
  obtain ⟨-, silent⟩ | ⟨-, hr⟩ := running
  · rw [silent]
    exact ⟨rfl, rfl, by simp [faults]⟩
  · exact hr.accounted (fun _ _ => Ran.wordings) sr

theorem found_events (c : Course) : found c.events = c.stages.flatMap found := by
  simp [Course.events_eq, Course.stages]

theorem emit_in_order_iff {a : Assembly} {b : Builder} {m n : Machine} {e : Emission}
    (h : (emit a b).run m = (.ok e, n)) :
    e.diagnostics.Perm (chronicle (ownFiles a) (course a b m).events) ∧
      (e.diagnostics = chronicle (ownFiles a) (course a b m).events ↔
        ∀ es ∈ (course a b m).stages, FaultsFirst (ownFiles a) es) := by
  obtain ⟨carried, diagnostics, -, -⟩ := emit_course h
  have accounted := carried.accounted
  rw [diagnostics, found_events, Course.events,
    chronicle_flatten fun es hes => (accounted es hes).matched]
  refine ⟨List.Perm.flatMap_left _ fun es hes => ?_, flatMap_found_eq_iff accounted⟩
  rw [(accounted es hes).found]
  exact perm_weave (accounted es hes).matched

def warnedBeforeFault : Assembly :=
  { name := "kiln.test.Unit", sources := [⟨1, "1 is 1\n", "a.py"⟩, ⟨2, ")\n", "b.py"⟩] }

/-- The fault of the second source is reported before the warning about the first. -/
theorem emit_out_of_order :
    let b : Builder := ⟨"kiln.test.Unit", "kiln.test", .runAndCollect, 0⟩
    let m : Machine := { heap := #[.module {}] }
    ∃ e n, (emit warnedBeforeFault b).run m = (.ok e, n) ∧
      e.diagnostics.map Diagnostic.id = [Diagnostic.syntaxError, Diagnostic.issuedWarning] ∧
      (chronicle (ownFiles warnedBeforeFault) (course warnedBeforeFault b m).events).map
        Diagnostic.id = [Diagnostic.issuedWarning, Diagnostic.syntaxError] ∧
      e.diagnostics ≠ chronicle (ownFiles warnedBeforeFault) (course warnedBeforeFault b m).events := by
  intro b m
  have emitted : ((emit warnedBeforeFault b).run m).1.toOption.map
      (fun e => e.diagnostics.map Diagnostic.id) =
        some [Diagnostic.syntaxError, Diagnostic.issuedWarning] := by decide +kernel
  have happened : (chronicle (ownFiles warnedBeforeFault)
      (course warnedBeforeFault b m).events).map Diagnostic.id =
        [Diagnostic.issuedWarning, Diagnostic.syntaxError] := by decide +kernel
  obtain ⟨e, n, ran, reported⟩ := returned emitted
  refine ⟨e, n, ran, reported, happened, fun same => ?_⟩
  rw [same, happened] at reported
  exact absurd reported (by decide)

/-- Without a fault nothing can be out of order. -/
theorem emit_in_order_of_sources :
    let a : Assembly := { name := "kiln.test.Unit", sources := [⟨1, "1 is 1\n", "a.py"⟩] }
    let b : Builder := ⟨"kiln.test.Unit", "kiln.test", .runAndCollect, 0⟩
    let m : Machine := { heap := #[.module {}] }
    ∃ e n, (emit a b).run m = (.ok e, n) ∧
      (e.diagnostics = chronicle (ownFiles a) (course a b m).events ↔
        ∀ es ∈ (course a b m).stages, FaultsFirst (ownFiles a) es) := by
  intro a b m
  have emitted : ((emit a b).run m).1.toOption.map Emission.success = some true := by
    decide +kernel
  obtain ⟨e, n, ran, -⟩ := returned emitted
  exact ⟨e, n, ran, (emit_in_order_iff ran).2⟩

end Stencil.Emission
