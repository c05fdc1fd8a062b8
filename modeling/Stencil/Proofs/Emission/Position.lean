import Stencil.Proofs.Emission.Return
import Stencil.Proofs.Emission.Warnings
import Stencil.Proofs.Emission.Gate
import Stencil.Proofs.Text.Column

/-!
Where the errors of an emission are placed. A traceback says in which file, on which line and after
how many bytes an error was raised, and of files it knows the names only. So the error of a body stands
where its innermost line in a source is, in characters, if the sources can be told apart by their file
names; of sources that share one, the text of the last is measured (`emit_points`).
-/

namespace Stencil

open Script Run

theorem Source.id_faultOf (path : String) (e : ParseError) :
    (faultOf path e).id = Diagnostic.syntaxError := by
  cases e <;> rfl

theorem Source.column_misuseOf (path : String) (misuse : Misuse) :
    (misuseOf path misuse).location.column = misuse.pos.byte := by
  change max ((misuse.pos.byte + 1 : Int) - 1) 0 = misuse.pos.byte
  omega

namespace Emission

def traceback (m : Machine) (error : Nat) : List Mark :=
  match m.heap[error]? with
  | some (.error _ _ _ trace) => trace
  | _ => []

theorem run_traceOf_eq (error : Nat) (m : Machine) :
    (traceOf error).run m = (.ok (traceback m error), m) := by
  rw [traceOf, run_bind, run_object, traceback]
  rcases m.heap[error]? with _ | o
  · rfl
  · cases o <;> rfl

def LastIn (sources : List Source) (file : String) (s : Source) : Prop :=
  ∃ earlier later, sources = earlier ++ s :: later ∧ s.file = file ∧ ∀ t ∈ later, t.file ≠ file

def Foreign (sources : List Source) (file : String) : Prop := ∀ s ∈ sources, s.file ≠ file

theorem sourceIn?_eq_some_iff {sources : List Source} {file : String} {s : Source} :
    sourceIn? sources file = some s ↔ LastIn sources file s := by
  rw [sourceIn?, List.find?_eq_some_iff_append, beq_iff_eq]
  constructor
  · rintro ⟨named, later, earlier, split, others⟩
    refine ⟨earlier.reverse, later.reverse, ?_, named, fun t ht => ?_⟩
    · simpa using congrArg List.reverse split
    · simpa using others t (List.mem_reverse.1 ht)
  · rintro ⟨earlier, later, rfl, named, others⟩
    refine ⟨named, later.reverse, earlier.reverse, by simp, fun t ht => ?_⟩
    simpa using others t (List.mem_reverse.1 ht)

theorem sourceIn?_eq_none_iff {sources : List Source} {file : String} :
    sourceIn? sources file = none ↔ Foreign sources file := by
  simp [sourceIn?, Foreign]

/-- The innermost line of a traceback that is in the file of a source, and the last source that is in
that file. -/
def Nearest (sources : List Source) (trace : List Mark) (g : Mark) (last : Source) : Prop :=
  ∃ inner outer, trace = inner ++ g :: outer ∧ (∀ mark ∈ inner, Foreign sources mark.file) ∧
    LastIn sources g.file last

theorem locationOf_of_nearest {sources : List Source} {trace : List Mark} {g : Mark} {last : Source}
    (h : Nearest sources trace g last) :
    locationOf sources trace =
      ⟨g.file, (g.line - 1 : Nat), (Text.charColumn last.text (g.line - 1) g.byte : Nat)⟩ := by
  obtain ⟨inner, outer, rfl, foreign, only⟩ := h
  have skipped : inner.findSome? (fun mark =>
      (sourceIn? sources mark.file).map fun s => (s, mark)) = none := by
    rw [List.findSome?_eq_none_iff]
    intro mark hm
    rw [sourceIn?_eq_none_iff.2 (foreign mark hm)]
    rfl
  rw [locationOf, List.findSome?_append, skipped, Option.none_or, List.findSome?_cons,
    sourceIn?_eq_some_iff.2 only]
  rfl

theorem exists_nearest {sources : List Source} {trace : List Mark} {f : Mark} {s : Source}
    (hf : f ∈ trace) (hs : s ∈ sources) (file : s.file = f.file) :
    ∃ g last, Nearest sources trace g last := by
  have known : ∃ mark ∈ trace, (sourceIn? sources mark.file).isSome = true := by
    refine ⟨f, hf, ?_⟩
    rw [Option.isSome_iff_ne_none, Ne, sourceIn?_eq_none_iff]
    exact fun foreign => foreign s hs file
  obtain ⟨g, found⟩ := Option.isSome_iff_exists.1 (List.find?_isSome.2 known)
  obtain ⟨named, inner, outer, split, others⟩ := List.find?_eq_some_iff_append.1 found
  obtain ⟨last, hl⟩ := Option.isSome_iff_exists.1 named
  refine ⟨g, last, inner, outer, split, fun mark hm => ?_, sourceIn?_eq_some_iff.1 hl⟩
  have unnamed := others mark hm
  rw [Bool.not_eq_true', Option.isSome_eq_false_iff, Option.isNone_iff_eq_none] at unnamed
  exact sourceIn?_eq_none_iff.1 unnamed

structure Site where
  mark : Mark
  source : Option Source := none

/-- Where the lines of a traceback are from; code of a source is in the file of that source. -/
structure Traced (sources : List Source) (trace : List Mark) (sites : List Site) : Prop where
  marks : sites.map Site.mark = trace
  compiled : ∀ site ∈ sites, ∀ s ∈ site.source, s ∈ sources ∧ s.file = site.mark.file

/-- The innermost line that is from a source, and the lines further in, which are from none. -/
structure Innermost (sites inner : List Site) (f : Mark) (s : Source) : Prop where
  split : ∃ outer, sites = inner ++ ⟨f, some s⟩ :: outer
  foreign : ∀ site ∈ inner, site.source = none

def placeAfter (f : Mark) (before : List Char) : Location :=
  ⟨f.file, (f.line - 1 : Nat), (before.length : Nat)⟩

/-- Sources are told apart by their file names: a line is in the last source of its file, and no line
further in is in the file of a source. -/
structure Apart (sources : List Source) (inner : List Site) (f : Mark) (s : Source) : Prop where
  last : LastIn sources f.file s
  foreign : ∀ site ∈ inner, Foreign sources site.mark.file

section alone

variable {s : Source} {f : Mark}

theorem Traced.alone (file : s.file = f.file) : Traced [s] [f] [⟨f, some s⟩] := by
  refine ⟨rfl, fun site hs known here => ?_⟩
  obtain rfl := List.mem_singleton.1 hs
  cases here
  exact ⟨List.mem_singleton_self s, file⟩

theorem Innermost.alone : Innermost [⟨f, some s⟩] [] f s := ⟨⟨[], rfl⟩, by simp⟩

theorem Apart.alone (file : s.file = f.file) : Apart [s] [] f s :=
  ⟨⟨[], [], rfl, file, by simp⟩, by simp⟩

end alone

section place

variable {sources : List Source} {trace : List Mark} {sites inner : List Site} {f : Mark}
  {s : Source} {before : List Char}

theorem locationOf_of_apart (traced : Traced sources trace sites) (at' : Innermost sites inner f s)
    (text : Text.Precedes s.text (f.line - 1) f.byte before) (apart : Apart sources inner f s) :
    locationOf sources trace = placeAfter f before := by
  obtain ⟨outer, rfl⟩ := at'.split
  have nearest : Nearest sources trace f s := by
    refine ⟨inner.map Site.mark, outer.map Site.mark, ?_, fun mark hm => ?_, apart.last⟩
    · rw [← traced.marks, List.map_append, List.map_cons]
    · obtain ⟨site, hs, rfl⟩ := List.mem_map.1 hm
      exact apart.foreign site hs
  rw [locationOf_of_nearest nearest, text.charColumn]
  rfl

/-- An error is placed after the text before it exactly if the innermost line in the file of a source
is on that line, and the last source of the file has as many characters before it. -/
theorem locationOf_eq_placeAfter_iff (traced : Traced sources trace sites)
    (at' : Innermost sites inner f s) :
    locationOf sources trace = placeAfter f before ↔
      ∃ g last, Nearest sources trace g last ∧ g.file = f.file ∧ g.line - 1 = f.line - 1 ∧
        Text.charColumn last.text (g.line - 1) g.byte = before.length := by
  obtain ⟨outer, split⟩ := at'.split
  have mem : (⟨f, some s⟩ : Site) ∈ sites := by
    rw [split]
    exact List.mem_append_right _ List.mem_cons_self
  obtain ⟨known, file⟩ := traced.compiled _ mem s rfl
  have line : f ∈ trace := by
    rw [← traced.marks]
    exact List.mem_map_of_mem (f := Site.mark) mem
  constructor
  · intro same
    obtain ⟨g, last, nearest⟩ := exists_nearest line known file
    rw [locationOf_of_nearest nearest, placeAfter, Location.mk.injEq] at same
    obtain ⟨sameFile, sameLine, column⟩ := same
    exact ⟨g, last, nearest, sameFile, Int.ofNat.inj sameLine, Int.ofNat.inj column⟩
  · rintro ⟨g, last, nearest, sameFile, sameLine, column⟩
    rw [locationOf_of_nearest nearest, placeAfter, column, sameFile, sameLine]

end place

def Trial.traceback? (module : Nat) (t : Trial) : Option (List Mark) :=
  match t.item with
  | .body p =>
    match (p.run module).run t.start with
    | (.error (.raised error _), o) => some (traceback o error)
    | _ => none
  | _ => none

theorem of_run_runOne_raised {sources : List Source} {module : Nat} {p : Program} {m n o : Machine}
    {error : Nat} {placed : Bool} {r : Except Diagnostic Unit}
    (raised : (p.run module).run m = (.error (.raised error placed), o))
    (h : (runOne sources module p).run m = (.ok r, n)) :
    ∃ what, r = .error (crash what (locationOf sources (traceback o error))) := by
  obtain ⟨result, o', first, h⟩ := of_run_bind h
  rw [reporting_eq] at first
  obtain ⟨_, ran, -⟩ | ⟨error', ⟨placed', ran, -⟩, rfl⟩ := asks_isReported.run_guarding first
  · rw [raised] at ran
    cases ran
  · rw [raised] at ran
    cases ran
    dsimp only at h
    rw [run_bind, run_traceOf_eq] at h
    obtain ⟨what, _, _, h⟩ := of_run_bind h
    cases h
    exact ⟨what, rfl⟩

theorem Ran.items {step : Program → Run (Except Diagnostic Unit)} {ps : List Program} {m n : Machine}
    {es : List Event} (h : Ran step ps m n es) : (trials es).map Trial.item <+: ps.map .body := by
  induction h with
  | nil m => exact List.prefix_rfl
  | fault h => simp
  | well h later ih => simpa using ih

theorem Runs.items {a : Assembly} {module : Nat} {ps : List Program} {m n : Machine} {es : List Event}
    (h : Runs a module ps m n es) : (trials es).map Trial.item <+: ps.map .body := by
  obtain ⟨_, before, ran, same, -⟩ := h.gone
  rw [same]
  exact ran.items

theorem Ran.fault_of_traceback {sources : List Source} {module : Nat} {ps : List Program}
    {m n : Machine} {es : List Event} {t : Trial} {trace : List Mark}
    (h : Ran (runOne sources module) ps m n es) (ht : t ∈ trials es)
    (raised : t.traceback? module = some trace) :
    ∃ what, t.fault = some (crash what (locationOf sources trace)) := by
  have fits := h.fits (Q := fun t => ∀ trace, t.traceback? module = some trace →
    ∃ what, t.fault = some (crash what (locationOf sources trace))) fun p m r n ran trace raised => ?_
  · exact fits t ht trace raised
  · unfold Trial.traceback? at raised
    rcases hp : (p.run module).run m with ⟨(⟨error, placed⟩ | _) | _, o⟩ <;> simp only [hp] at raised
    · cases raised
      obtain ⟨what, rfl⟩ := of_run_runOne_raised hp ran
      exact ⟨what, rfl⟩
    · cases raised
    · cases raised

section report

variable {a : Assembly} {b : Builder} {m n : Machine} {e : Emission} {d : Diagnostic}

theorem fault_of_mem_diagnostics (h : (emit a b).run m = (.ok e, n)) (hd : d ∈ e.diagnostics)
    (number : d.id ≠ Diagnostic.issuedWarning) : d ∈ faults (course a b m).events := by
  obtain ⟨-, diagnostics, -, -⟩ := emit_course h
  rw [diagnostics] at hd
  exact fault_of_mem_found hd number

theorem mem_diagnostics_of_fault (h : (emit a b).run m = (.ok e, n))
    (hd : d ∈ faults (course a b m).events) : d ∈ e.diagnostics := by
  obtain ⟨-, diagnostics, -, -⟩ := emit_course h
  rw [diagnostics]
  exact mem_found_of_fault hd

/-- A body that raised an error is the one error of the report, and is placed by its traceback. -/
theorem reported_of_traceback (h : (emit a b).run m = (.ok e, n)) {t : Trial}
    (ht : t ∈ trials (course a b m).running) {trace : List Mark}
    (raised : t.traceback? b.module = some trace) :
    ∃ what, crash what (locationOf a.sources trace) ∈ e.diagnostics ∧
      ∀ g ∈ e.diagnostics, g.id = Diagnostic.runtimeError →
        g = crash what (locationOf a.sources trace) := by
  obtain ⟨carried, -⟩ := emit_course h
  obtain ⟨-, silent⟩ | ⟨-, _, running⟩ := carried.gate
  · rw [silent] at ht
    simp [trials] at ht
  obtain ⟨_, before, ran, same, -⟩ := running.gone
  obtain ⟨what, fault⟩ := ran.fault_of_traceback (same ▸ ht) raised
  have faulty : crash what (locationOf a.sources trace) ∈ faults (course a b m).running := by
    rw [faults_eq]
    exact List.mem_filterMap.2 ⟨t, ht, fault⟩
  obtain ⟨_, _, _, -, -, -, only⟩ := carried.of_mem_running faulty
  refine ⟨what, mem_diagnostics_of_fault h (only ▸ List.mem_singleton_self _), fun g hg number => ?_⟩
  have mem := fault_of_mem_diagnostics h hg (by rw [number]; decide)
  rwa [only, List.mem_singleton] at mem

end report

/-- A report of an error that a body raised after some text on its line, in an emission whose sources
are told apart by their file names. -/
structure RaisedAfter (a : Assembly) (b : Builder) (m n : Machine) (e : Emission) (d : Diagnostic)
    (before : List Char) : Prop where
  ran : (emit a b).run m = (.ok e, n)
  reported : d ∈ e.diagnostics
  number : d.id = Diagnostic.runtimeError
  raised : ∃ t ∈ trials (course a b m).running, ∃ trace sites inner f s,
    t.traceback? b.module = some trace ∧ Traced a.sources trace sites ∧ Innermost sites inner f s ∧
      Text.Precedes s.text (f.line - 1) f.byte before ∧ Apart a.sources inner f s

theorem RaisedAfter.column {a : Assembly} {b : Builder} {m n : Machine} {e : Emission}
    {d : Diagnostic} {before : List Char} (h : RaisedAfter a b m n e d before) :
    d.location.column = before.length := by
  obtain ⟨t, ht, trace, sites, inner, f, s, raised, traced, innermost, text, apart⟩ := h.raised
  obtain ⟨what, -, only⟩ := reported_of_traceback h.ran ht raised
  rw [only d h.reported h.number, crash, locationOf_of_apart traced innermost text apart]
  rfl

/-- A source that raises an error after seven characters, one of which takes two bytes. -/
def accented : Source := ⟨1, "é = 1; assert 0\n", "a.py"⟩

theorem raisedAfter_accented :
    let a : Assembly := { name := "kiln.test.Unit", sources := [accented] }
    let b : Builder := ⟨"kiln.test.Unit", "kiln.test", .runAndCollect, 0⟩
    let m : Machine := { heap := #[.module {}] }
    ∃ n e d, RaisedAfter a b m n e d "é = 1; ".toList := by
  intro a b m
  have emitted : ((emit a b).run m).1.toOption.map Emission.diagnostics =
      some [crash "AssertionError: " ⟨"a.py", 0, 7⟩] := by decide +kernel
  have traces : (trials (course a b m).running).map (Trial.traceback? b.module) =
      [some [⟨"a.py", 1, 8⟩]] := by decide +kernel
  have before : Text.Precedes accented.text 0 8 "é = 1; ".toList :=
    ⟨"é = 1; assert 0".toList, by decide +kernel, by decide +kernel, by decide +kernel⟩
  have file : accented.file = "a.py" := by decide +kernel
  obtain ⟨e, n, ran, report⟩ := returned emitted
  obtain ⟨t, only, raised⟩ := List.map_eq_singleton_iff.1 traces
  refine ⟨n, e, _, ran, report ▸ List.mem_singleton_self _, rfl, t, only ▸ List.mem_singleton_self t, ?_⟩
  exact ⟨_, _, _, _, _, raised, .alone file, .alone, before, .alone file⟩

/-- The error of a body is placed by where its code came from. -/
theorem emit_points {a : Assembly} {b : Builder} {m n : Machine} {e : Emission}
    (h : (emit a b).run m = (.ok e, n)) {t : Trial} (ht : t ∈ trials (course a b m).running)
    {trace : List Mark} (raised : t.traceback? b.module = some trace) :
    ∃ d ∈ e.diagnostics, d.id = Diagnostic.runtimeError ∧
      (∀ g ∈ e.diagnostics, g.id = Diagnostic.runtimeError → g = d) ∧
      ∀ sites inner f s before, Traced a.sources trace sites → Innermost sites inner f s →
        Text.Precedes s.text (f.line - 1) f.byte before →
        (Apart a.sources inner f s → d.location = placeAfter f before) ∧
        (d.location = placeAfter f before ↔
          ∃ g last, Nearest a.sources trace g last ∧ g.file = f.file ∧ g.line - 1 = f.line - 1 ∧
            Text.charColumn last.text (g.line - 1) g.byte = before.length) := by
  obtain ⟨what, reported, only⟩ := reported_of_traceback h ht raised
  refine ⟨_, reported, rfl, only, fun sites inner f s before traced innermost text => ⟨?_, ?_⟩⟩
  · exact locationOf_of_apart traced innermost text
  · exact locationOf_eq_placeAfter_iff traced innermost

/-- An error on a line on which a character of two bytes is before it. -/
theorem emit_points_accented :
    let a : Assembly := { name := "kiln.test.Unit", sources := [accented] }
    let b : Builder := ⟨"kiln.test.Unit", "kiln.test", .runAndCollect, 0⟩
    let m : Machine := { heap := #[.module {}] }
    ∃ e n t trace sites inner f s, (emit a b).run m = (.ok e, n) ∧
      t ∈ trials (course a b m).running ∧ t.traceback? b.module = some trace ∧
      Traced a.sources trace sites ∧ Innermost sites inner f s ∧
      Text.Precedes s.text (f.line - 1) f.byte "é = 1; ".toList ∧ Apart a.sources inner f s ∧
      ∃ d ∈ e.diagnostics, d.id = Diagnostic.runtimeError ∧
        d.location = placeAfter f "é = 1; ".toList := by
  intro a b m
  obtain ⟨n, e, _, after⟩ : ∃ n e d, RaisedAfter a b m n e d "é = 1; ".toList :=
    raisedAfter_accented
  obtain ⟨t, mem, trace, sites, inner, f, s, raised, traced, innermost, text, apart⟩ := after.raised
  obtain ⟨d, hd, number, -, places⟩ := emit_points after.ran mem raised
  have place := (places _ _ _ _ _ traced innermost text).1 apart
  exact ⟨e, n, t, trace, sites, inner, f, s, after.ran, mem, raised, traced, innermost, text, apart, d, hd,
    number, place⟩

/-- Two sources without a path are in one file by name: an error in the first is placed on the line of
the second. -/
theorem emit_shadowed :
    let first : Source := ⟨1, "é = 1; assert 0\n", ""⟩
    let second : Source := ⟨2, "", ""⟩
    let a : Assembly := { name := "kiln.test.Unit", sources := [first, second] }
    let b : Builder := ⟨"kiln.test.Unit", "kiln.test", .runAndCollect, 0⟩
    let m : Machine := { heap := #[.module {}] }
    ∃ t p, trials (course a b m).running = [t] ∧ t.item = .body p ∧
      first.verdict a.options.optimize = .ok p ∧
      t.traceback? b.module = some [⟨first.file, 1, 8⟩] ∧
      Text.Precedes first.text 0 8 "é = 1; ".toList ∧ "é = 1; ".toList.length = 7 ∧
      ((emit a b).run m).1.toOption.map Emission.diagnostics =
        some [crash "AssertionError: " ⟨first.file, 0, 0⟩] := by
  intro first second a b m
  have emitted : ((emit a b).run m).1.toOption.map Emission.diagnostics =
      some [crash "AssertionError: " ⟨first.file, 0, 0⟩] := by decide +kernel
  have traces : (trials (course a b m).running).map (Trial.traceback? b.module) =
      [some [⟨first.file, 1, 8⟩]] := by decide +kernel
  have text : Text.Precedes first.text 0 8 "é = 1; ".toList :=
    ⟨"é = 1; assert 0".toList, by decide +kernel, by decide +kernel, by decide +kernel⟩
  have readable : (first.verdict a.options.optimize).toOption.isSome = true := by decide +kernel
  obtain ⟨t, only, raised⟩ := List.map_eq_singleton_iff.1 traces
  obtain ⟨p, verdict⟩ := Option.isSome_iff_exists.1 readable
  obtain ⟨e, n, ran, -⟩ := returned emitted
  have mem : t ∈ trials (course a b m).running := only ▸ List.mem_singleton_self t
  -- the one body that was run is the first of the programs, which is that of the first source
  have item : t.item = .body p := by
    obtain ⟨-, silent⟩ | ⟨-, _, running⟩ := (emit_course ran).1.gate
    · rw [silent] at mem
      cases mem
    · have order := running.items
      have programs : programsOf a = p :: [second].filterMap fun s =>
          (s.verdict a.options.optimize).toOption := List.filterMap_cons_some verdict
      rw [only, programs, List.map_cons, List.map_cons, List.cons_prefix_cons] at order
      exact order.1
  refine ⟨t, p, only, item, ?_, raised, text, rfl, emitted⟩
  cases hv : first.verdict a.options.optimize <;> rw [hv] at verdict <;> cases verdict
  rfl

namespace Carried

variable {a : Assembly} {module : Nat} {m : Machine} {c : Course} {t : Trial}

theorem source_mem (h : Carried a module m c) (ht : t ∈ trials c.events) {s : Source}
    (item : t.item = .source s) : s ∈ a.sources := by
  have known {es : List Event} {is : List Item} (items : (trials es).map Trial.item = is)
      (ht : t ∈ trials es) : Item.source s ∈ is := by
    rw [← items, ← item]
    exact List.mem_map_of_mem ht
  simp only [Course.events_eq, trials_append, List.mem_append] at ht
  obtain ((ht | ht) | ht) | ht := ht
  · simpa using known h.loading_items ht
  · simpa using known h.taking_items ht
  · simpa using known h.checking_items ht
  · -- only bodies are run
    obtain ⟨-, silent⟩ | ⟨-, _, running⟩ := h.gate
    · rw [silent] at ht
      simp [trials] at ht
    · have body := running.items.subset (List.mem_map_of_mem (f := Trial.item) ht)
      rw [item] at body
      simp at body

end Carried

theorem misuse_of_mem_diagnostics {a : Assembly} {b : Builder} {m n : Machine} {e : Emission}
    {d : Diagnostic} (h : (emit a b).run m = (.ok e, n)) (hd : d ∈ e.diagnostics)
    (number : d.id = Diagnostic.compileError) :
    ∃ s ∈ a.sources, ∃ tree misuse, s.reading = .ok tree ∧
      Program.made tree s.file a.options.optimize = .error misuse ∧
      d = Source.misuseOf s.path misuse := by
  obtain ⟨carried, -⟩ := emit_course h
  have fault := fault_of_mem_diagnostics h hd (by rw [number]; decide)
  rw [faults_eq] at fault
  obtain ⟨t, ht, hf⟩ := List.mem_filterMap.1 fault
  have refused := (carried.fits t ht).fault hf
  generalize hi : t.item = i at refused
  cases refused with
  | @refused s _ verdict =>
    refine ⟨s, carried.source_mem ht hi, ?_⟩
    obtain ⟨error, -, rfl⟩ | ⟨tree, misuse, reads, made, rfl⟩ := Source.of_verdict_error verdict
    · rw [Source.id_faultOf] at number
      exact absurd number (by decide)
    · exact ⟨tree, misuse, reads, made, rfl⟩
  | unloadable =>
    exact absurd number (show Diagnostic.unresolvedReference ≠ Diagnostic.compileError by decide)
  | unknown =>
    exact absurd number (show Diagnostic.unresolvedNamespace ≠ Diagnostic.compileError by decide)
  | crash => exact absurd number (show Diagnostic.runtimeError ≠ Diagnostic.compileError by decide)

/-- Code that reads and cannot run is placed by the bytes before it. -/
theorem emit_measures {a : Assembly} {b : Builder} {m n : Machine} {e : Emission} {d : Diagnostic}
    (h : (emit a b).run m = (.ok e, n)) (hd : d ∈ e.diagnostics)
    (number : d.id = Diagnostic.compileError) :
    ∃ s ∈ a.sources, ∃ tree misuse, s.reading = .ok tree ∧
      Program.made tree s.file a.options.optimize = .error misuse ∧
      d = Source.misuseOf s.path misuse ∧
      ∀ before, Text.Precedes s.text (misuse.pos.line - 1) misuse.pos.byte before →
        (d.location.column = before.length ↔ ∀ c ∈ before, c.val ≤ 127) ∧
        ∀ a' b' m' n' e' d', RaisedAfter a' b' m' n' e' d' before →
          (d.location.column = d'.location.column ↔ ∀ c ∈ before, c.val ≤ 127) := by
  obtain ⟨s, hs, tree, misuse, reads, made, rfl⟩ := misuse_of_mem_diagnostics h hd number
  refine ⟨s, hs, tree, misuse, reads, made, rfl, fun before text => ?_⟩
  have characters : (Source.misuseOf s.path misuse).location.column = before.length ↔
      ∀ c ∈ before, c.val ≤ 127 := by
    obtain ⟨_, -, -, bytes⟩ := text
    rw [Source.column_misuseOf, ← bytes, Int.ofNat_inj, Text.utf8Length_eq_length_iff]
  refine ⟨characters, fun a' b' m' n' e' d' raised => ?_⟩
  rw [raised.column, characters]

/-- The same characters before a statement that cannot run and before one that raises an error. -/
theorem emit_measures_accented :
    let a : Assembly := { name := "kiln.test.Unit", sources := [⟨1, "é = 1; return\n", "a.py"⟩] }
    let b : Builder := ⟨"kiln.test.Unit", "kiln.test", .runAndCollect, 0⟩
    let m : Machine := { heap := #[.module {}] }
    ∃ e n e' n' d', (emit a b).run m = (.ok e, n) ∧
      RaisedAfter { a with sources := [accented] } b m n' e' d' "é = 1; ".toList ∧
      ∃ d ∈ e.diagnostics, d.id = Diagnostic.compileError ∧
        d.location.column ≠ "é = 1; ".toList.length ∧ d.location.column ≠ d'.location.column := by
  intro a b m
  have refused : ((emit a b).run m).1.toOption.map Emission.diagnostics =
      some [Source.misuseOf "a.py" ⟨"'return' outside function", ⟨1, 7, 8⟩⟩] := by decide +kernel
  obtain ⟨e, n, ran, report⟩ := returned refused
  obtain ⟨n', e', d', raised⟩ := raisedAfter_accented
  have mem : Source.misuseOf "a.py" ⟨"'return' outside function", ⟨1, 7, 8⟩⟩ ∈ e.diagnostics :=
    report ▸ List.mem_singleton_self _
  obtain ⟨s, hs, tree, misuse, -, -, same, places⟩ := emit_measures ran mem rfl
  obtain rfl := List.mem_singleton.1 hs
  have line : misuse.pos.line - 1 = 0 := by
    have lines := congrArg (fun g : Diagnostic => g.location.line) same
    simp only [Source.misuseOf, Location.ofOneBased, fromOne] at lines
    omega
  have byte : misuse.pos.byte = 8 := by
    have columns := congrArg (fun g : Diagnostic => g.location.column) same
    rw [Source.column_misuseOf, Source.column_misuseOf] at columns
    exact (Int.ofNat.inj columns).symm
  rw [line, byte] at places
  obtain ⟨characters, columns⟩ := places "é = 1; ".toList
    ⟨"é = 1; return".toList, by decide +kernel, by decide +kernel, by decide +kernel⟩
  have wide : ¬∀ c ∈ "é = 1; ".toList, c.val ≤ 127 :=
    fun narrow => absurd (narrow 'é' (by simp)) (by decide)
  exact ⟨e, n, e', n', d', ran, raised, _, mem, rfl, characters.not.2 wide,
    (columns _ _ _ _ _ _ raised).not.2 wide⟩

/-- After the same seven characters, a statement that cannot run is placed after eight and one that raises
an error after seven. -/
theorem emit_mismeasured :
    let a : Assembly := { name := "kiln.test.Unit", sources := [⟨1, "é = 1; return\n", "a.py"⟩] }
    let b : Builder := ⟨"kiln.test.Unit", "kiln.test", .runAndCollect, 0⟩
    let m : Machine := { heap := #[.module {}] }
    ((emit a b).run m).1.toOption.map Emission.diagnostics =
      some [⟨Diagnostic.compileError, .error, "SyntaxError: 'return' outside function",
        ⟨"a.py", 0, 8⟩⟩] ∧
    Text.Precedes "é = 1; return\n" 0 8 "é = 1; ".toList ∧ "é = 1; ".toList.length = 7 ∧
    ∃ n e d, RaisedAfter { a with sources := [accented] } b m n e d "é = 1; ".toList ∧
      d.location.column = 7 := by
  intro a b m
  refine ⟨by decide +kernel, ?_, by decide +kernel, ?_⟩
  · exact ⟨"é = 1; return".toList, by decide +kernel, by decide +kernel, by decide +kernel⟩
  · obtain ⟨n, e, d, raised⟩ := raisedAfter_accented
    exact ⟨n, e, d, raised, raised.column⟩

end Emission

end Stencil
