import Stencil.Proofs.Compiler.Work
import Stencil.Proofs.Emission.Report

/-!
The verdict on an emission: what a compilation answers is decided by what was emitted, and every
diagnostic is handed on as an entry, in order. Errors reject the source with all entries; without
errors the entries are the warnings of the product, or come before the one that misses the class.
-/

namespace Stencil

open Script Run

theorem Script.Run.run_pathOf (c : ClassRef) (m : Machine) :
    ∃ path, (pathOf c).run m = (.ok path, m) := by
  cases c with
  | library name => exact ⟨_, rfl⟩
  | defined ref =>
    unfold pathOf
    rw [run_bind, run_object]
    dsimp only
    split <;> exact ⟨_, rfl⟩

namespace Report

def Shows (entries : List Entry) (ds : List Diagnostic) : Prop :=
  ds.map Entry.ofDiagnostic = entries.map .ok

theorem Entry.of_ofDiagnostic {d : Diagnostic} {e : Entry} (h : ofDiagnostic d = .ok e) :
    e.file = d.location.path ∧ e.number = d.id ∧ e.isWarning = !d.isError := by
  unfold ofDiagnostic at h
  cases hl : count d.location.line <;> cases hc : count d.location.column <;> rw [hl, hc] at h <;>
    cases h
  exact ⟨rfl, rfl, rfl⟩

theorem shows_of_mapM {ds : List Diagnostic} {entries : List Entry}
    (h : ds.mapM Entry.ofDiagnostic = .ok entries) : Shows entries ds := by
  induction ds generalizing entries with
  | nil =>
    cases h
    rfl
  | cons d rest ih =>
    rw [List.mapM_cons] at h
    cases entry : Entry.ofDiagnostic d with
    | error issues =>
      rw [entry] at h
      cases h
    | ok e =>
      cases later : rest.mapM Entry.ofDiagnostic with
      | error issues =>
        rw [entry, later] at h
        cases h
      | ok others =>
        rw [entry, later] at h
        cases h
        rw [Shows, List.map_cons, entry, ih later, List.map_cons]

theorem shows_of_placed {ds : List Diagnostic}
    (h : ∀ d ∈ ds, 0 ≤ d.location.line ∧ 0 ≤ d.location.column) :
    ∃ entries, ds.mapM Entry.ofDiagnostic = .ok entries ∧ Shows entries ds := by
  obtain ⟨entries, converted⟩ : ∃ entries, ds.mapM Entry.ofDiagnostic = .ok entries := by
    induction ds with
    | nil => exact ⟨[], rfl⟩
    | cons d rest ih =>
      rw [List.forall_mem_cons] at h
      obtain ⟨entries, ran⟩ := ih h.2
      rw [List.mapM_cons, Entry.ofDiagnostic_of_nonneg h.1.1 h.1.2, ran]
      exact ⟨_, rfl⟩
  exact ⟨entries, converted, shows_of_mapM converted⟩

namespace Shows

variable {entries : List Entry} {ds : List Diagnostic}

theorem unique {others : List Entry} (h : Shows entries ds) (h' : Shows others ds) : entries = others :=
  List.map_injective_iff.2 (fun _ _ => Except.ok.inj) (Eq.trans (Eq.symm h) h')

theorem of_mem (h : Shows entries ds) {e : Entry} (he : e ∈ entries) :
    ∃ d ∈ ds, Entry.ofDiagnostic d = .ok e := by
  have image : Except.ok e ∈ ds.map Entry.ofDiagnostic := h ▸ List.mem_map_of_mem he
  exact List.mem_map.1 image

theorem isWarning (h : Shows entries ds) (mild : ∀ d ∈ ds, d.isError = false) :
    ∀ e ∈ entries, e.isWarning = true := by
  intro e he
  obtain ⟨d, hd, entry⟩ := h.of_mem he
  rw [(Entry.of_ofDiagnostic entry).2.2, mild d hd]
  rfl

theorem exists_error (h : Shows entries ds) (severe : ∃ d ∈ ds, d.isError = true) :
    ∃ e ∈ entries, e.isWarning = false := by
  obtain ⟨d, hd, error⟩ := severe
  have image : Entry.ofDiagnostic d ∈ entries.map Except.ok := by
    rw [← h]
    exact List.mem_map_of_mem hd
  obtain ⟨e, he, entry⟩ := List.mem_map.1 image
  refine ⟨e, he, ?_⟩
  rw [(Entry.of_ofDiagnostic entry.symm).2.2, error]
  rfl

end Shows

theorem Failure.hasErrors_of_mem {f : Failure} {e : Entry} (he : e ∈ f.entries)
    (error : e.isWarning = false) : f.hasErrors = true := by
  have found : e ∈ f.errors := List.mem_filter.2 ⟨he, by rw [error]; rfl⟩
  rw [hasErrors, Bool.not_eq_true', List.isEmpty_eq_false_iff_exists_mem]
  exact ⟨e, found⟩

theorem Failure.errors_append_warnings_perm (f : Failure) :
    (f.errors ++ f.warnings).Perm f.entries := by
  have split := List.filter_append_perm (fun e : Entry => !e.isWarning) f.entries
  simpa only [errors, warnings, Bool.not_not] using split

end Report

namespace Compiler

def Keeps (code : Work Unit) : Prop :=
  ∀ w, ∃ v, code.run.run w = (.ok (), v) ∧ v.machine = w.machine

namespace Keeps

theorem pure : Keeps (Pure.pure ()) := fun w => ⟨w, rfl, rfl⟩

theorem bind {code next : Work Unit} (first : Keeps code) (h : Keeps next) :
    Keeps (code >>= fun _ => next) := by
  intro w
  obtain ⟨v, ran, kept⟩ := first w
  obtain ⟨u, ran', kept'⟩ := h v
  refine ⟨u, ?_, kept'.trans kept⟩
  rw [run_bind, ran]
  exact ran'

theorem run_bind {code : Work Unit} (h : Keeps code) (next : Work α) (w : Workshop) :
    ∃ v, v.machine = w.machine ∧ (code >>= fun _ => next).run.run w = next.run.run v := by
  obtain ⟨v, ran, kept⟩ := h w
  refine ⟨v, kept, ?_⟩
  rw [Compiler.run_bind, ran]

end Keeps

theorem keeps_log (level : Int) (message : String) (fields : List (String × Datum)) :
    Keeps (log level message fields) := fun _ => ⟨_, rfl, rfl⟩

theorem keeps_noteWarnings (entries : List Report.Entry) : Keeps (noteWarnings entries) := by
  induction entries with
  | nil => exact Keeps.pure
  | cons e rest ih =>
    unfold noteWarnings
    split
    · exact (keeps_log _ _ _).bind ih
    · exact Keeps.pure.bind ih

theorem keeps_recordAll (entries : List Report.Entry) : Keeps (recordAll entries) :=
  Keeps.bind (fun _ => ⟨_, rfl, rfl⟩) (keeps_noteWarnings entries)

/-- The verdict on what was emitted and is shown by entries; the class is looked for on a machine. -/
def verdict (c : Compiler) (context : Context) (r : Emitted) (entries : List Report.Entry)
    (m : Machine) : Except Failure Product :=
  let artifacts : Artifacts := { source := some context.source, folder := some r.folder }
  let rejected := fun (artifacts : Artifacts) entries =>
    Failure.rejected ⟨entries, artifacts.source, artifacts.folder, context.template⟩ artifacts
  if !r.emission.success then .error (rejected artifacts entries)
  else if r.emission.isUncollectible then .error .uncollectible
  else
    let artifacts := { artifacts with warnings := entries }
    match r.builder.typeNamed m (c.moduleName context) with
    | .error message => .error (.lookup message)
    | .ok none =>
      .error (rejected artifacts (entries ++ [missingEntry context.className r.path]))
    | .ok (some cls) => .ok ⟨cls, artifacts⟩

theorem run_entriesOf {ds : List Diagnostic} {entries : List Report.Entry}
    (h : ds.mapM Report.Entry.ofDiagnostic = .ok entries) (w : Workshop) :
    (entriesOf ds).run.run w = (.ok entries, w) := by
  unfold entriesOf
  rw [h]
  rfl

theorem judge_eq {c : Compiler} {context : Context} {r : Emitted} {entries : List Report.Entry}
    (h : r.emission.diagnostics.mapM Report.Entry.ofDiagnostic = .ok entries) (w : Workshop) :
    ((c.judge context r).run.run w).1 = c.verdict context r entries w.machine := by
  unfold judge verdict
  rw [run_bind, run_entriesOf h]
  dsimp only
  -- entries are noted in the journal, and the class is looked for on the machine
  obtain ⟨v, kept, ran⟩ := (keeps_recordAll entries).run_bind _ w
  rw [ran, ← kept]
  unfold conclude
  cases hs : r.emission.success with
  | false =>
    obtain ⟨u, -, ran⟩ := (keeps_log _ _ _).run_bind _ v
    simp only [Bool.not_false, if_true]
    rw [ran]
    rfl
  | true =>
    simp only [Bool.not_true, Bool.false_eq_true, if_false]
    cases hu : r.emission.isUncollectible with
    | true =>
      obtain ⟨u, -, ran⟩ := (keeps_log _ _ _).run_bind _ v
      simp only [if_true]
      rw [ran]
      rfl
    | false =>
      simp only [Bool.false_eq_true, if_false]
      rw [run_bind, run_get]
      dsimp only
      rcases r.builder.typeNamed v.machine (c.moduleName context) with message | _ | cls
      · rfl
      · rfl
      · obtain ⟨path, ran⟩ := run_pathOf cls v.machine
        rw [run_bind, run_onMachine ran]
        rfl

theorem of_run_emitInto {c : Compiler} {context : Context} {path : String} {ds : List Dependency}
    {b : Builder} {e : Emission} {w w' : Workshop}
    (h : (c.emitInto context path ds).run.run w = (.ok (b, e), w')) :
    ∃ a m n, (c.define (c.moduleName context)).run m = (.ok b, n) ∧
      (c.backend.emit a b).run n = (.ok e, w'.machine) ∧ ∃ id, a.sources = [⟨id, context.source, path⟩] := by
  obtain ⟨_, _, _, h⟩ := of_run_bind h
  obtain ⟨v, _, _, h⟩ := of_run_bind h
  obtain ⟨b, _, defined, h⟩ := of_run_bind h
  obtain ⟨_, _, noted, h⟩ := of_run_bind h
  obtain ⟨e, u, emitted, h⟩ := of_run_bind h
  obtain ⟨m, made, rfl⟩ := of_run_onMachine defined
  cases noted
  obtain ⟨n, ran, rfl⟩ := of_run_onMachine emitted
  cases h
  exact ⟨_, _, _, made, ran, _, rfl⟩

theorem of_run_toEmission {c : Compiler} {context : Context} {r : Emitted} {w w' : Workshop}
    (h : (c.toEmission context).run.run w = (.ok r, w')) :
    ∃ a m n, (c.define (c.moduleName context)).run m = (.ok r.builder, n) ∧
      (c.backend.emit a r.builder).run n = (.ok r.emission, w'.machine) ∧
      ∃ id, a.sources = [⟨id, context.source, r.path⟩] := by
  obtain ⟨folder, _, _, h⟩ := of_run_bind h
  obtain ⟨path, _, _, h⟩ := of_run_bind h
  obtain ⟨dependencies, _, _, h⟩ := of_run_bind h
  obtain ⟨⟨b, e⟩, _, emitted, h⟩ := of_run_bind h
  cases h
  exact of_run_emitInto emitted

def leave (token : Nat) (p : Except Failure Product × Workshop) :
    Except Failure Product × Workshop :=
  (p.1, { p.2 with
    scope := (p.2.scope.exit? token).getD p.2.scope
    registry := count p.2.elapsed p.2.registry p.1 })

theorem run_compile (c : Compiler) (context : Context) (w : Workshop) :
    (c.compile context).run w =
      leave (c.enter context w).2 ((c.carryOut context).run.run (c.enter context w).1) := by
  unfold compile
  generalize c.carryOut context = code
  rfl

theorem compile_eq (c : Compiler) (context : Context) (w : Workshop) :
    ((c.compile context).run w).1 = ((c.carryOut context).run.run (c.enter context w).1).1 := by
  rw [run_compile, leave]

theorem compile_eq_verdict {c : Compiler} {context : Context} {r : Emitted} {w w' : Workshop}
    {entries : List Report.Entry}
    (h : (c.toEmission context).run.run (c.enter context w).1 = (.ok r, w'))
    (hr : r.emission.diagnostics.mapM Report.Entry.ofDiagnostic = .ok entries) :
    ((c.compile context).run w).1 = c.verdict context r entries w'.machine := by
  rw [compile_eq, carryOut, run_bind, h]
  exact judge_eq hr w'

/-- What a compilation that has emitted answers, told by the diagnostics. The class is looked for on
the machine that the emission left. -/
structure Faithful (c : Compiler) (context : Context) (r : Emitted) (m : Machine)
    (result : Except Failure Product) : Prop where
  /-- Errors reject the source with all there is to say about it. -/
  failed : (∃ d ∈ r.emission.diagnostics, d.isError = true) →
    ∃ report artifacts, result = .error (.rejected report artifacts) ∧
      Report.Shows report.entries r.emission.diagnostics
  found : (∀ d ∈ r.emission.diagnostics, d.isError = false) →
    r.emission.isUncollectible = false →
    ∀ cls, r.builder.typeNamed m (c.moduleName context) = .ok (some cls) →
    ∃ product, result = .ok product ∧ product.cls = cls ∧
      Report.Shows product.artifacts.warnings r.emission.diagnostics ∧
      ∀ e ∈ product.artifacts.warnings, e.isWarning = true
  missing : (∀ d ∈ r.emission.diagnostics, d.isError = false) →
    r.emission.isUncollectible = false →
    r.builder.typeNamed m (c.moduleName context) = .ok none →
    ∃ report artifacts entries, result = .error (.rejected report artifacts) ∧
      report.entries = entries ++ [missingEntry context.className r.path] ∧
      Report.Shows entries r.emission.diagnostics ∧ (∀ e ∈ entries, e.isWarning = true) ∧
      (missingEntry context.className r.path).isWarning = false ∧
      (missingEntry context.className r.path).number = Diagnostic.missingType
  /-- Whatever is rejected has errors, and its entries are its errors and its warnings. -/
  rejected : ∀ report artifacts, result = .error (.rejected report artifacts) →
    (report.errors ++ report.warnings).Perm report.entries ∧
      (∀ e ∈ report.errors, e.isWarning = false) ∧ (∀ e ∈ report.warnings, e.isWarning = true) ∧
      report.hasErrors = true
  /-- No diagnostic is refused. -/
  valid : ∀ issues, result ≠ .error (.invalidEntry issues)

section verdict

variable {c : Compiler} {context : Context} {r : Emitted} {entries : List Report.Entry} {m : Machine}

theorem verdict_of_failure (h : r.emission.success = false) :
    ∃ report artifacts, c.verdict context r entries m = .error (.rejected report artifacts) ∧
      report.entries = entries := by
  simp [verdict, h]

theorem verdict_of_uncollectible (h : r.emission.success = true)
    (hu : r.emission.isUncollectible = true) :
    c.verdict context r entries m = .error .uncollectible := by
  simp [verdict, h, hu]

theorem verdict_of_blocked {message : String} (h : r.emission.success = true)
    (hu : r.emission.isUncollectible = false)
    (ht : r.builder.typeNamed m (c.moduleName context) = .error message) :
    c.verdict context r entries m = .error (.lookup message) := by
  simp [verdict, h, hu, ht]

theorem verdict_of_found {cls : ClassRef} (h : r.emission.success = true)
    (hu : r.emission.isUncollectible = false)
    (ht : r.builder.typeNamed m (c.moduleName context) = .ok (some cls)) :
    ∃ product, c.verdict context r entries m = .ok product ∧ product.cls = cls ∧
      product.artifacts.warnings = entries := by
  simp [verdict, h, hu, ht]

theorem verdict_of_missing (h : r.emission.success = true)
    (hu : r.emission.isUncollectible = false)
    (ht : r.builder.typeNamed m (c.moduleName context) = .ok none) :
    ∃ report artifacts, c.verdict context r entries m = .error (.rejected report artifacts) ∧
      report.entries = entries ++ [missingEntry context.className r.path] := by
  simp [verdict, h, hu, ht]

variable (c context r entries m) in
/-- All that a verdict can be. A source is rejected because it failed, or because the class is
missing. -/
theorem verdict_cases :
    (∃ report artifacts, c.verdict context r entries m = .error (.rejected report artifacts) ∧
      (r.emission.success = false ∧ report.entries = entries ∨
        missingEntry context.className r.path ∈ report.entries)) ∨
    c.verdict context r entries m = .error .uncollectible ∨
    (∃ message, c.verdict context r entries m = .error (.lookup message)) ∨
    ∃ product, c.verdict context r entries m = .ok product := by
  cases hs : r.emission.success with
  | false =>
    obtain ⟨report, artifacts, result, he⟩ := verdict_of_failure hs
    exact .inl ⟨report, artifacts, result, .inl ⟨rfl, he⟩⟩
  | true =>
    cases hu : r.emission.isUncollectible with
    | true => exact .inr (.inl (verdict_of_uncollectible hs hu))
    | false =>
      rcases ht : r.builder.typeNamed m (c.moduleName context) with message | _ | cls
      · exact .inr (.inr (.inl ⟨message, verdict_of_blocked hs hu ht⟩))
      · obtain ⟨report, artifacts, result, he⟩ := verdict_of_missing hs hu ht
        refine .inl ⟨report, artifacts, result, .inr ?_⟩
        rw [he]
        exact List.mem_append_right _ List.mem_cons_self
      · obtain ⟨product, result, -⟩ := verdict_of_found hs hu ht
        exact .inr (.inr (.inr ⟨product, result⟩))

theorem of_verdict_rejected {report : Report.Failure} {artifacts : Artifacts}
    (h : c.verdict context r entries m = .error (.rejected report artifacts)) :
    r.emission.success = false ∧ report.entries = entries ∨
      missingEntry context.className r.path ∈ report.entries := by
  obtain ⟨_, _, result, why⟩ | result | ⟨_, result⟩ | ⟨_, result⟩ :=
    verdict_cases c context r entries m <;>
    rw [result] at h <;> cases h
  exact why

theorem verdict_valid (issues : List Report.Issue) :
    c.verdict context r entries m ≠ .error (.invalidEntry issues) := by
  obtain ⟨_, _, result, -⟩ | result | ⟨_, result⟩ | ⟨_, result⟩ :=
    verdict_cases c context r entries m <;>
    rw [result] <;> rintro ⟨⟩

theorem verdict_faithful (sound : r.emission.Sound)
    (shown : Report.Shows entries r.emission.diagnostics) (m : Machine) :
    Faithful c context r m (c.verdict context r entries m) where
  failed severe := by
    have failure : r.emission.success = false := by
      rw [← Bool.not_eq_true, sound.success]
      simpa using severe
    obtain ⟨report, artifacts, result, he⟩ := verdict_of_failure failure
    refine ⟨report, artifacts, result, ?_⟩
    rwa [he]
  found mild hu cls ht := by
    obtain ⟨product, result, hc, he⟩ := verdict_of_found (sound.success.2 mild) hu ht
    refine ⟨product, result, hc, ?_⟩
    rw [he]
    exact ⟨shown, shown.isWarning mild⟩
  missing mild hu ht := by
    obtain ⟨report, artifacts, result, he⟩ := verdict_of_missing (sound.success.2 mild) hu ht
    exact ⟨report, artifacts, entries, result, he, shown, shown.isWarning mild, rfl, rfl⟩
  rejected report artifacts result := by
    refine ⟨report.errors_append_warnings_perm, fun e he => ?_, fun e he => ?_, ?_⟩
    · simpa using (List.mem_filter.1 he).2
    · exact (List.mem_filter.1 he).2
    · obtain ⟨failure, rfl⟩ | missing := of_verdict_rejected result
      · have severe : ∃ d ∈ r.emission.diagnostics, d.isError = true := by
          have unsuccessful : ¬ ∀ d ∈ r.emission.diagnostics, d.isError = false := by
            rw [← sound.success, failure]
            exact Bool.false_ne_true
          simpa using unsuccessful
        obtain ⟨e, he, error⟩ := shown.exists_error severe
        exact Report.Failure.hasErrors_of_mem he error
      · exact Report.Failure.hasErrors_of_mem missing rfl
  valid := verdict_valid

end verdict

theorem compile_faithful {c : Compiler} {context : Context} {r : Emitted} {w w' : Workshop}
    (h : (c.toEmission context).run.run (c.enter context w).1 = (.ok r, w')) :
    (c.backend.emit = Emission.emit → r.emission.Sound) ∧
      (r.emission.Sound →
        Faithful c context r w'.machine ((c.compile context).run w).1) ∧
      ∀ path line column, 0 ≤ (Location.ofOneBased path line column).line ∧
        0 ≤ (Location.ofOneBased path line column).column := by
  refine ⟨fun standard => ?_, fun sound => ?_, Location.ofOneBased_nonneg⟩
  · obtain ⟨a, m, n, -, ran, -⟩ := of_run_toEmission h
    rw [standard] at ran
    exact Emission.emit_sound ran
  · obtain ⟨entries, converted, shown⟩ := Report.shows_of_placed sound.placed
    rw [compile_eq_verdict h converted]
    exact verdict_faithful sound shown w'.machine

/-- A namespace that nothing leads to, and a source that is worth a warning: it is rejected with both. -/
theorem compile_faithful_mixed :
    let c : Compiler := {}
    let context : Context := { source := "1 is 1\n", className := "T", namespaces := ["gone"] }
    let w : Workshop := { machine := { files := { folders := [["tmp"]] } } }
    let unknown := Emission.unknownNamespace "gone"
    let remark := "SyntaxWarning: \"is\" with a literal. Did you mean \"==\"?"
    let file := "/tmp/kiln_<1>/kiln.dynamic.T.py"
    ∃ r w', (c.toEmission context).run.run (c.enter context w).1 = (.ok r, w') ∧
      r.emission.diagnostics = [unknown, ⟨Diagnostic.issuedWarning, .warning, remark, ⟨file, 0, 0⟩⟩] ∧
      Faithful c context r w'.machine ((c.compile context).run w).1 ∧
      ∃ report artifacts, ((c.compile context).run w).1 = .error (.rejected report artifacts) ∧
        report.entries = [⟨unknown.message, "", 0, 0, Diagnostic.unresolvedNamespace, false⟩,
          ⟨remark, file, 0, 0, Diagnostic.issuedWarning, true⟩] := by
  intro c context w unknown remark file
  have emitted : ((c.toEmission context).run.run (c.enter context w).1).1.toOption.map
      (fun r => r.emission.diagnostics) =
        some [unknown, ⟨Diagnostic.issuedWarning, .warning, remark, ⟨file, 0, 0⟩⟩] := by
    decide +kernel
  obtain ⟨r, w', ran, diagnostics⟩ := Emission.returned emitted
  have reached := compile_faithful ran
  have faithful := reached.2.1 (reached.1 rfl)
  obtain ⟨report, artifacts, result, shown⟩ :=
    faithful.failed ⟨unknown, by rw [diagnostics]; exact List.mem_cons_self, rfl⟩
  rw [diagnostics] at shown
  exact ⟨r, w', ran, diagnostics, faithful, report, artifacts, result, shown.unique rfl⟩

end Compiler

end Stencil
