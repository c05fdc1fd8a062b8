import Stencil.Proofs.Compiler.Delivery
import Stencil.Proofs.Emission.Attribution
import Stencil.Proofs.Emission.Position
import Stencil.Proofs.Report.Excerpt

/-!
What the report on a rejected source quotes. It has the text of the source only, and puts a line of it
under every entry that names a file and a line that the source has, whichever file that is
(`compile_quotes`). Errors never name another file than the source; warnings that were issued while a
file was run to load a dependency do.
-/

namespace Stencil

open Script Run

namespace Emission

section places

variable {a : Assembly} {b : Builder} {m n : Machine} {e : Emission} {d : Diagnostic}

/-- What a diagnostic of an emission is about: nothing in particular, a source, or a file that a
dependency spells. -/
inductive About (a : Assembly) (d : Diagnostic) : Prop
  | nothing (h : d.location.path = "")
  | source {s : Source} (mem : s ∈ a.sources) (h : d.location.path = s.path ∨ d.location.path = s.file)
  | dependency {t : Dependency} (mem : t ∈ a.dependencies) (h : d.location.path ∈ t.spelled)
      (mild : d.isError = false) (number : d.id = Diagnostic.issuedWarning)

theorem path_of_verdict {level : Int} {s : Source} (h : s.verdict level = .error d) :
    d.location.path = s.path := by
  obtain ⟨e, -, rfl⟩ | ⟨tree, misuse, -, -, rfl⟩ := Source.of_verdict_error h
  · cases e <;> rfl
  · rfl

theorem path_locationOf (sources : List Source) (trace : List Mark) :
    (locationOf sources trace).path = "" ∨
      ∃ s ∈ sources, (locationOf sources trace).path = s.file := by
  unfold locationOf
  split
  · exact .inl rfl
  · next s mark found =>
    obtain ⟨seen, -, there⟩ := List.exists_of_findSome?_eq_some found
    obtain ⟨_, sought, same⟩ := Option.map_eq_some_iff.1 there
    cases same
    have named : s.file = mark.file := by simpa using List.find?_some sought
    exact .inr ⟨s, List.mem_reverse.1 (List.mem_of_find?_eq_some sought), named.symm⟩

theorem about_of_fault {c : Course} {module : Nat} {m : Machine} (carried : Carried a module m c)
    (hd : d ∈ faults c.events) : About a d := by
  rw [faults_eq] at hd
  obtain ⟨t, ht, hf⟩ := List.mem_filterMap.1 hd
  have fault := (carried.fits t ht).fault hf
  generalize item : t.item = i at fault
  cases fault with
  | unloadable => exact .nothing rfl
  | unknown => exact .nothing rfl
  | refused verdict => exact .source (carried.source_mem ht item) (.inl (path_of_verdict verdict))
  | crash p what trace =>
    obtain nowhere | ⟨s, mem, there⟩ := path_locationOf a.sources trace
    · exact .nothing nowhere
    · exact .source mem (.inr there)

theorem about_of_mem_diagnostics (h : (emit a b).run m = (.ok e, n)) (hd : d ∈ e.diagnostics) :
    About a d := by
  obtain ⟨carried, diagnostics, -⟩ := emit_course h
  rw [diagnostics] at hd
  obtain ⟨event, he, hf⟩ := List.mem_filterMap.1 hd
  cases event with
  | ended t => exact about_of_fault carried (List.mem_filterMap.2 ⟨_, he, hf⟩)
  | worded t =>
    have mem : t.warning ∈ (wordings (course a b m).events).map Wording.warning :=
      List.mem_map_of_mem (List.mem_filterMap.2 ⟨_, he, rfl⟩)
    obtain ⟨text, -, rfl⟩ := Option.map_eq_some_iff.1 hf
    rw [(carried.wordings_eq).1] at mem
    have own := List.contains_iff_mem.1 (List.mem_filter.1 mem).2
    obtain ⟨s, mem, same⟩ | ⟨d, mem, spelled⟩ := mem_ownFiles.1 own
    · exact .source mem (.inr same.symm)
    · exact .dependency mem spelled rfl rfl
  | _ => cases hf

end places

end Emission

theorem Path.normal_ne_empty (path : String) : normal path ≠ "" := by
  unfold normal
  split
  · decide
  · assumption

namespace Report

namespace Failure

open Text

/-- A report has a line under an entry that names a file and a line of its source, and under no other. -/
theorem under_eq {f : Failure} {source : String} (text : f.source = some source) (e : Entry) :
    f.under e = if e.file = "" then [] else ((wideLines source)[e.line]?.map shown).toList := by
  rw [under, excerpt, text, Option.getD_some]
  cases (wideLines source)[e.line]? <;> rfl

theorem under_ne_nil_iff {f : Failure} {source : String} (text : f.source = some source) (e : Entry) :
    f.under e ≠ [] ↔ e.file ≠ "" ∧ e.line < (wideLines source).length := by
  rw [under_eq text]
  split
  · next unnamed => simp [unnamed]
  · next named =>
    cases there : (wideLines source)[e.line]? with
    | none =>
      have beyond := List.getElem?_eq_none_iff.1 there
      simp [Nat.not_lt.2 beyond]
    | some line => simpa [named] using (List.getElem?_eq_some_iff.1 there).1

end Failure

end Report

namespace Compiler

section rejected

variable {c : Compiler} {context : Context} {r : Emitted} {w w' : Workshop} {report : Report.Failure}
  {artifacts : Artifacts}

theorem path_of_run_toEmission (h : (c.toEmission context).run.run w = (.ok r, w')) :
    r.path = c.sourceFile context r.folder := by
  obtain ⟨folder, _, _, h⟩ := of_run_bind h
  obtain ⟨path, _, stored, h⟩ := of_run_bind h
  obtain ⟨dependencies, _, _, h⟩ := of_run_bind h
  obtain ⟨emitted, _, _, h⟩ := of_run_bind h
  cases h
  change path = c.sourceFile context folder
  obtain ⟨failure, -, ran⟩ | ⟨place, v, -, ran, -⟩ := run_store_cases c context folder _ <;>
    rw [ran] at stored
  · cases stored
  · exact (Except.ok.inj (Prod.mk.inj stored).1).symm

theorem of_compile_rejected
    (h : ((c.compile context).run w).1 = .error (.rejected report artifacts)) :
    ∃ r w' entries, (c.toEmission context).run.run (c.enter context w).1 = (.ok r, w') ∧
      r.emission.diagnostics.mapM Report.Entry.ofDiagnostic = .ok entries ∧
      c.verdict context r entries w'.machine = .error (.rejected report artifacts) := by
  cases ran : (c.toEmission context).run.run (c.enter context w).1 with
  | mk result w' =>
    cases result with
    | error failure =>
      have silent := not_answer_of_failed ran
      rw [h] at silent
      cases silent
    | ok r =>
      cases converted : r.emission.diagnostics.mapM Report.Entry.ofDiagnostic with
      | error issues =>
        rw [compile_eq_invalid ran converted] at h
        cases h
      | ok entries =>
        rw [compile_eq_verdict ran converted] at h
        exact ⟨r, w', entries, rfl, converted, h⟩

/-- A report on a rejected source has its text, an entry for each diagnostic, and perhaps one that says
that the class is missing. -/
theorem of_verdict_rejected_entries {entries : List Report.Entry} {m : Machine}
    (h : c.verdict context r entries m = .error (.rejected report artifacts)) :
    report.source = some context.source ∧
      ∀ e ∈ report.entries, e ∈ entries ∨ e = missingEntry context.className r.path := by
  unfold verdict at h
  dsimp only at h
  split at h
  · cases h
    exact ⟨rfl, fun e he => .inl he⟩
  · split at h
    · cases h
    · split at h <;> cases h
      refine ⟨rfl, fun e he => ?_⟩
      simpa using he

theorem place_of_mem_entries (standard : c.backend.emit = Emission.emit) {a : Assembly} {n : Machine}
    (ran : (c.backend.emit a r.builder).run n = (.ok r.emission, w'.machine)) {id : Nat}
    (sources : a.sources = [⟨id, context.source, r.path⟩]) (filled : r.path ≠ "")
    {entries : List Report.Entry}
    (shown : Report.Shows entries r.emission.diagnostics) {e : Report.Entry} (he : e ∈ entries) :
    e.file = "" ∨ e.file = r.path ∨ e.isWarning = true ∧ e.number = Diagnostic.issuedWarning ∧
      ∃ d ∈ a.dependencies, e.file ∈ d.spelled := by
  obtain ⟨d, hd, entry⟩ := shown.of_mem he
  obtain ⟨file, number, warning⟩ := Report.Entry.of_ofDiagnostic entry
  rw [standard] at ran
  rw [file, number, warning]
  cases Emission.about_of_mem_diagnostics ran hd with
  | nothing h => exact .inl h
  | source mem h =>
    rw [sources, List.mem_singleton] at mem
    have own : Source.file ⟨id, context.source, r.path⟩ = r.path := by simp [Source.file, filled]
    rw [mem, own, or_self] at h
    exact .inr (.inl h)
  | dependency mem h mild same => exact .inr (.inr ⟨by rw [mild]; rfl, same, _, mem, h⟩)

theorem compile_quotes (h : ((c.compile context).run w).1 = .error (.rejected report artifacts)) :
    ∃ r w', (c.toEmission context).run.run (c.enter context w).1 = (.ok r, w') ∧
      (∀ e ∈ report.entries, report.under e =
        if e.file = "" then []
        else ((Text.wideLines context.source)[e.line]?.map Report.Failure.shown).toList) ∧
      ((∀ e ∈ report.entries, report.under e ≠ [] → e.file = r.path) ↔
        ∀ e ∈ report.entries, e.file ≠ "" → e.file ≠ r.path →
          (Text.wideLines context.source).length ≤ e.line) ∧
      (c.backend.emit = Emission.emit → ∃ a n id, a.sources = [⟨id, context.source, r.path⟩] ∧
        (Emission.emit a r.builder).run n = (.ok r.emission, w'.machine) ∧
        ∀ e ∈ report.entries, e.file = "" ∨ e.file = r.path ∨
          e.isWarning = true ∧ e.number = Diagnostic.issuedWarning ∧
            ∃ d ∈ a.dependencies, e.file ∈ d.spelled) := by
  obtain ⟨r, w', entries, ran, converted, judged⟩ := of_compile_rejected h
  obtain ⟨text, members⟩ := of_verdict_rejected_entries judged
  refine ⟨r, w', ran, fun e _ => Report.Failure.under_eq text e, ?_, fun standard => ?_⟩
  · simp only [Report.Failure.under_ne_nil_iff text]
    refine forall₂_congr fun e he => ?_
    constructor
    · intro law named other
      by_contra inside
      exact other (law ⟨named, Nat.lt_of_not_le inside⟩)
    · intro law quoted
      by_contra other
      exact absurd (law quoted.1 other) (Nat.not_le_of_lt quoted.2)
  · obtain ⟨a, _, n, -, emitted, id, sources⟩ := of_run_toEmission ran
    have filled : r.path ≠ "" := by
      rw [path_of_run_toEmission ran]
      exact Path.normal_ne_empty _
    refine ⟨a, n, id, sources, standard ▸ emitted, fun e he => ?_⟩
    obtain he | rfl := members e he
    · exact place_of_mem_entries standard emitted sources filled (Report.shows_of_mapM converted) he
    · exact .inr (.inl rfl)

end rejected

theorem of_report? {result : Except Failure Product} {report : Report.Failure}
    (h : report? result = some report) : ∃ artifacts, result = .error (.rejected report artifacts) := by
  unfold report? at h
  split at h <;> cases h
  exact ⟨_, rfl⟩

/-- A source without its class: the one entry is about its first line. -/
theorem compile_quotes_classless :
    let c : Compiler := {}
    let context : Context := { source := "T = 1\n", className := "T" }
    let w : Workshop := { machine := { files := { folders := [["tmp"]] } } }
    ∃ report artifacts e, ((c.compile context).run w).1 = .error (.rejected report artifacts) ∧
      report.entries = [e] ∧ report.under e = ["     | T = 1"] := by
  intro c context w
  have compiled : (report? ((c.compile context).run w).1).map
      (fun report => report.entries.map fun e => (e.file == "", e.line)) = some [(false, 0)] := by
    decide +kernel
  obtain ⟨report, reported, entries⟩ := Option.map_eq_some_iff.1 compiled
  obtain ⟨artifacts, rejected⟩ := of_report? reported
  obtain ⟨e, only, place⟩ := List.map_eq_singleton_iff.1 entries
  obtain ⟨named, line⟩ := Prod.mk.inj place
  obtain ⟨-, -, -, quoted, -⟩ := compile_quotes rejected
  refine ⟨report, artifacts, e, rejected, only, ?_⟩
  rw [quoted e (only ▸ List.mem_singleton_self e), if_neg (by simpa using named), line]
  decide +kernel

/-- A file warns and the source fails: the report has the first line of the source under the warning
about the file. -/
theorem compile_misquotes :
    let c : Compiler := {}
    let context : Context :=
      { source := "x = 1\n", className := "T", references := [.file "/work/lib.py"] }
    let files : Files := { folders := [["tmp"], ["work"]], texts := [(["work", "lib.py"], "1 is 1\n")] }
    let w : Workshop := { machine := { files } }
    ∃ report e f, report? ((c.compile context).run w).1 = some report ∧ report.entries = [e, f] ∧
      e.file = "/work/lib.py" ∧ f.file = "/tmp/kiln_<1>/kiln.dynamic.T.py" ∧
      report.under e = ["     | x = 1"] ∧ report.under f = ["     | x = 1"] := by
  intro c context files w
  have compiled : (report? ((c.compile context).run w).1).map
      (fun report => report.entries.map fun e => (e.file, report.under e)) =
        some [("/work/lib.py", ["     | x = 1"]),
          ("/tmp/kiln_<1>/kiln.dynamic.T.py", ["     | x = 1"])] := by
    decide +kernel
  obtain ⟨report, reported, entries⟩ := Option.map_eq_some_iff.1 compiled
  obtain ⟨e, rest, all, first, entries⟩ := List.map_eq_cons_iff.1 entries
  obtain ⟨f, rfl, second⟩ := List.map_eq_singleton_iff.1 entries
  obtain ⟨file, quoted⟩ := Prod.mk.inj first
  obtain ⟨file', quoted'⟩ := Prod.mk.inj second
  exact ⟨report, e, f, reported, all, file, file', quoted, quoted'⟩

end Compiler

end Stencil
