import Stencil.Proofs.Emission.Report

/-!
The gate of an emission: every dependency, namespace and source is gone through, whatever is wrong
with some of them, and what the sources say is run if nothing was wrong. An emission succeeds if
nothing was wrong with any item and all that the sources say ran to its end (`emit_gated`).
-/

namespace Stencil.Emission

open Script Run

def programsOf (a : Assembly) : List Program :=
  a.sources.filterMap fun s => (s.verdict a.options.optimize).toOption

def Item.program? (level : Int) : Item → Option Program
  | source s => (s.verdict level).toOption
  | _ => none

theorem programs_of_verdicts {level : Int} {ss : List Source}
    (h : ∀ s ∈ ss, faultOf (s.verdict level) = none) :
    ss.map (fun s => s.verdict level) =
      (ss.filterMap fun s => (s.verdict level).toOption).map .ok := by
  induction ss with
  | nil => rfl
  | cons s rest ih =>
    rw [List.forall_mem_cons] at h
    cases hv : s.verdict level with
    | error d =>
      have fault := h.1
      rw [hv] at fault
      cases fault
    | ok p =>
      rw [List.filterMap_cons]
      simp only [List.map_cons, hv, Except.toOption, ih h.2]

theorem faults_eq_outcomes (es : List Event) :
    faults es = ((trials es).map Trial.outcome).filterMap Prod.snd := by
  rw [faults_eq, List.filterMap_map]
  rfl

namespace Carried

variable {a : Assembly} {module : Nat} {m : Machine} {c : Course}

theorem loading_items (h : Carried a module m c) :
    (trials c.loading).map Trial.item = a.dependencies.map .dependency := by
  obtain ⟨_, _, _, _, _, _, hl, -⟩ := h.gone
  exact hl.items

theorem taking_items (h : Carried a module m c) :
    (trials c.taking).map Trial.item = a.options.usings.map .usage := by
  obtain ⟨_, _, _, _, _, _, -, ht, -⟩ := h.gone
  exact ht.items

theorem checking_items (h : Carried a module m c) :
    (trials c.checking).map Trial.item = a.sources.map .source := by
  obtain ⟨_, _, _, _, _, _, -, -, hc, -⟩ := h.gone
  exact hc.items

theorem begun_before (h : Carried a module m c) :
    begun (c.loading ++ c.taking ++ c.checking) =
      a.dependencies.map .dependency ++ a.options.usings.map .usage ++ a.sources.map .source := by
  obtain ⟨_, _, _, _, _, _, hl, ht, hc, -⟩ := h.gone
  simp only [begun_append, hl.begun_eq, ht.begun_eq, hc.begun_eq]

theorem programs_eq {m n : Machine} {programs : List Program} {es : List Event}
    (hc : Checks a m programs n es) : programs = programsOf a := by
  have brought := hc.brought (Item.program? a.options.optimize ∘ Trial.item) fun s m r n h => by
    rw [of_run_checkOne h]
    rfl
  rw [brought, ← List.filterMap_map, hc.items, List.filterMap_map]
  rfl

theorem gate (h : Carried a module m c) :
    faults (c.loading ++ c.taking ++ c.checking) ≠ [] ∧ c.running = [] ∨
      faults (c.loading ++ c.taking ++ c.checking) = [] ∧
        ∃ n, Runs a module (programsOf a) n c.left c.running := by
  obtain ⟨_, _, n, _, _, programs, -, -, hc, running⟩ := h.gone
  rw [programs_eq hc] at running
  exact running.imp_right fun ⟨well, hr⟩ => ⟨well, n, hr⟩

theorem running_ends (h : Carried a module m c)
    (well : faults (c.loading ++ c.taking ++ c.checking) = []) :
    ((trials c.running).map Trial.outcome = (programsOf a).map (fun p => (.body p, none)) ∧
      begun c.running = (programsOf a).map .body) ∨
    ∃ before p after d, programsOf a = before ++ p :: after ∧
      (trials c.running).map Trial.outcome =
        before.map (fun p => (.body p, none)) ++ [(.body p, some d)] ∧
      begun c.running = (before ++ [p]).map .body := by
  obtain ⟨faulty, -⟩ | ⟨-, n, ran⟩ := h.gate
  · exact absurd well faulty
  · obtain ⟨_, before, ran, ht, hb, -⟩ := ran.gone
    rw [ht, hb]
    exact ran.ends

theorem of_mem_running (h : Carried a module m c) {d : Diagnostic} (hd : d ∈ faults c.running) :
    ∃ before p after, programsOf a = before ++ p :: after ∧
      (trials c.running).map Trial.outcome =
        before.map (fun p => (.body p, none)) ++ [(.body p, some d)] ∧
      begun c.running = (before ++ [p]).map .body ∧ faults c.events = [d] := by
  obtain ⟨-, silent⟩ | ⟨well, -⟩ := h.gate
  · rw [silent] at hd
    cases hd
  · -- bodies that all ran to their end leave no fault to speak of
    rw [faults_eq_outcomes] at hd
    obtain ⟨ho, -⟩ | ⟨before, p, after, g, split, ho, begun⟩ := h.running_ends well
    · simp [ho] at hd
    · rw [ho] at hd
      obtain rfl : d = g := by simpa using hd
      refine ⟨before, p, after, split, ho, begun, ?_⟩
      rw [Course.events_eq, faults_append, well, faults_eq_outcomes, ho]
      simp

end Carried

structure Gated (a : Assembly) (module : Nat) (c : Course) (e : Emission) : Prop where
  /-- Every item is gone through once and in its place. -/
  loading : (trials c.loading).map Trial.item = a.dependencies.map .dependency
  taking : (trials c.taking).map Trial.item = a.options.usings.map .usage
  checking : (trials c.checking).map Trial.item = a.sources.map .source
  fits : ∀ t ∈ trials c.events, t.Fits a module c.loaded
  /-- Sources with which nothing is wrong all have programs. -/
  programs : (∀ t ∈ trials c.checking, t.fault = none) →
    a.sources.map (fun s => s.verdict a.options.optimize) = (programsOf a).map .ok
  success : e.success = true ↔
    (∀ t ∈ trials (c.loading ++ c.taking ++ c.checking), t.fault = none) ∧
      (trials c.running).map Trial.outcome = (programsOf a).map fun p => (.body p, none)
  /-- Once something is wrong, no body begins. -/
  held : (∃ t ∈ trials (c.loading ++ c.taking ++ c.checking), t.fault ≠ none) →
    c.running = [] ∧ ∀ p, .body p ∉ begun c.events
  /-- The bodies before one that does not run to its end did, and none after it begins. -/
  crashed : ∀ d ∈ faults c.running, ∃ before p after, programsOf a = before ++ p :: after ∧
    (trials c.running).map Trial.outcome =
      before.map (fun p => (.body p, none)) ++ [(.body p, some d)] ∧
    begun c.running = (before ++ [p]).map .body ∧ e.diagnostics.filter Diagnostic.isError = [d]
  /-- The errors of the report are the faults of the items, in order. -/
  errors : e.diagnostics.filter Diagnostic.isError =
    (trials c.loading).filterMap Trial.fault ++ (trials c.taking).filterMap Trial.fault ++
      (trials c.checking).filterMap Trial.fault ++ (trials c.running).filterMap Trial.fault
  numbered : ∀ t ∈ trials c.events, ∀ d ∈ t.fault, d.id ∈ t.item.numbers
  once : ((trials c.running).filterMap Trial.fault).length ≤ 1

namespace Carried

variable {a : Assembly} {module : Nat} {m : Machine} {c : Course}

theorem programs_whole (h : Carried a module m c) (well : ∀ t ∈ trials c.checking, t.fault = none) :
    a.sources.map (fun s => s.verdict a.options.optimize) = (programsOf a).map .ok := by
  refine programs_of_verdicts fun s hs => ?_
  have item : Item.source s ∈ (trials c.checking).map Trial.item := by
    rw [h.checking_items]
    exact List.mem_map_of_mem hs
  obtain ⟨⟨i, start, fault⟩, ht, rfl⟩ := List.mem_map.1 item
  have mem : ⟨.source s, start, fault⟩ ∈ trials c.events := by
    rw [Course.events_eq, trials_append, trials_append]
    exact List.mem_append_left _ (List.mem_append_right _ ht)
  have fits : fault = faultOf (s.verdict a.options.optimize) := h.fits _ mem
  rw [← fits]
  exact well _ ht

theorem faults_eq_nil_iff (h : Carried a module m c) :
    faults c.events = [] ↔
      (∀ t ∈ trials (c.loading ++ c.taking ++ c.checking), t.fault = none) ∧
        (trials c.running).map Trial.outcome = (programsOf a).map fun p => (.body p, none) := by
  rw [Course.events_eq, faults_append, List.append_eq_nil_iff, ← faults_eq_nil]
  refine and_congr_right fun well => ?_
  constructor
  · intro none
    obtain ⟨ho, -⟩ | ⟨before, p, after, d, -, ho, -⟩ := h.running_ends well
    · exact ho
    · simp [faults_eq_outcomes, ho] at none
  · intro ho
    rw [faults_eq_outcomes, ho]
    simp

theorem no_body_begun (h : Carried a module m c)
    (faulty : faults (c.loading ++ c.taking ++ c.checking) ≠ []) :
    c.running = [] ∧ ∀ p, .body p ∉ begun c.events := by
  obtain ⟨-, silent⟩ | ⟨well, -⟩ := h.gate
  · refine ⟨silent, fun p => ?_⟩
    rw [Course.events_eq, silent, List.append_nil, h.begun_before]
    simp
  · exact absurd well faulty

theorem faults_running_length (h : Carried a module m c) : (faults c.running).length ≤ 1 := by
  cases hf : faults c.running with
  | nil => exact Nat.zero_le 1
  | cons d rest =>
    obtain ⟨before, p, after, -, ho, -, -⟩ := h.of_mem_running (hf ▸ List.mem_cons_self)
    rw [← hf, faults_eq_outcomes, ho]
    simp

end Carried

theorem emit_gated {a : Assembly} {b : Builder} {m n : Machine} {e : Emission}
    (h : (emit a b).run m = (.ok e, n)) :
    Carried a b.module (start a b m) (course a b m) ∧ Gated a b.module (course a b m) e ∧
      (handOn (foreignOf (ownFiles a) (course a b m).events)).run (m.resume (course a b m).left) =
        (.ok (), n) := by
  obtain ⟨carried, diagnostics, success, left⟩ := emit_course h
  have errors : e.diagnostics.filter Diagnostic.isError = faults (course a b m).events := by
    rw [diagnostics]
    exact filter_isError_found carried.isError
  refine ⟨carried, ?_, left⟩
  exact
    { loading := carried.loading_items
      taking := carried.taking_items
      checking := carried.checking_items
      fits := carried.fits
      programs := carried.programs_whole
      success := success.trans carried.faults_eq_nil_iff
      held := fun ⟨t, ht, faulty⟩ => carried.no_body_begun fun well =>
        faulty (faults_eq_nil.1 well t ht)
      crashed := fun d hd => by
        obtain ⟨before, p, after, split, ho, begun, only⟩ := carried.of_mem_running hd
        exact ⟨before, p, after, split, ho, begun, errors.trans only⟩
      errors := by
        rw [errors, Course.events_eq]
        simp only [faults_eq, trials_append, List.filterMap_append]
      numbered := fun t ht d hd => ((carried.fits t ht).fault hd).numbered
      once := by
        rw [← faults_eq]
        exact carried.faults_running_length }

/-- A namespace that nothing leads to keeps a source from being run. -/
theorem emit_gated_unknown :
    let a : Assembly :=
      { name := "kiln.test.Unit", sources := [⟨1, "x = 1\n", "a.py"⟩]
        options := { usings := ["gone"] } }
    let b : Builder := ⟨"kiln.test.Unit", "kiln.test", .runAndCollect, 0⟩
    let m : Machine := { heap := #[.module {}] }
    ∃ e n, (emit a b).run m = (.ok e, n) ∧ e.diagnostics = [unknownNamespace "gone"] ∧
      Gated a b.module (course a b m) e := by
  intro a b m
  have emitted : ((emit a b).run m).1.toOption.map Emission.diagnostics =
      some [unknownNamespace "gone"] := by decide +kernel
  obtain ⟨e, n, ran, reported⟩ := returned emitted
  exact ⟨e, n, ran, reported, (emit_gated ran).2.1⟩

end Stencil.Emission
