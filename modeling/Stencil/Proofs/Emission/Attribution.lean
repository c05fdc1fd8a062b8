import Stencil.Proofs.Emission.Gate
import Stencil.Proofs.Emission.Loading
import Stencil.Proofs.Emission.Warnings

/-!
Whose warnings an emission reports. The warnings of a file that is run to load a dependency are reported
if the name that its code goes by is, as a text, among the assembly's own files, and are handed on if
not (`emit_attributes`). A dependency itself adds its location to them as it is spelled.
-/

namespace Stencil

open Script Run

def Dependency.warningsOf (d : Dependency) (file : String) (m : Machine) : List Issued :=
  (d.load.run m.quiet).2.issued.filter fun w => w.file == file

theorem Script.Run.issued_run {α : Type} (code : Run α) (m : Machine) :
    (code.run m).2.issued = m.issued ++ (code.run m.quiet).2.issued :=
  congrArg (fun p : Except Stop α × Machine => p.2.issued) (code.framed m)

theorem Script.Run.issued_bind {α β : Type} (code : Run α) (f : α → Run β) (m : Machine) :
    (code.run m).2.issued <+: ((code >>= f).run m).2.issued := by
  rw [run_bind]
  rcases code.run m with ⟨s | a, n⟩
  · exact List.prefix_rfl
  · rw [issued_run (f a) n]
    exact List.prefix_append _ _

namespace Emission

theorem issued_reporting {α : Type} (code : Run α) (m : Machine) :
    (code.run m).2.issued <+: ((reporting code).run m).2.issued := by
  rw [reporting, run_tryCatch, map_eq_pure_bind, run_bind]
  rcases code.run m with ⟨s | a, n⟩
  · dsimp only
    rw [issued_run _ n]
    exact List.prefix_append _ _
  · exact List.prefix_rfl

theorem issued_bindOne {module : Nat} {d : Dependency} {m n : Machine}
    {r : Except Diagnostic Nat} (h : (bindOne module d).run m = (.ok r, n)) :
    (d.load.run m).2.issued <+: n.issued := by
  have whole : ((reporting d.load).run m).2.issued <+: ((bindOne module d).run m).2.issued :=
    issued_bind _ _ m
  rw [h] at whole
  exact (issued_reporting d.load m).trans whole

theorem Gone.of_mem_trials {ι α : Type} {item : ι → Item} {step : ι → Run (Except Diagnostic α)}
    {is : List ι} {m n : Machine} {as : List α} {es : List Event} {t : Trial}
    (h : Gone item step is m as n es) (hm : m.quiet = m) (ht : t ∈ trials es) :
    ∃ i r o, t.item = item i ∧ t.start.quiet = t.start ∧ t.start.files = m.files ∧
      (step i).run t.start = (.ok r, o) ∧ o.issued.Sublist (warnings es) := by
  have files {i : ι} {m n : Machine} {r : Except Diagnostic α} (hm : m.quiet = m)
      (h : (step i).run m = (.ok r, n)) : n.quiet.files = m.files := by
    have onward := Onward.run (step i) m
    rw [hm, h] at onward
    exact onward.files
  induction h with
  | nil m => simp [trials] at ht
  | @fault i rest m n o g as es h later ih | @well i rest m n o a as es h later ih =>
    rw [trials_passage_append, List.mem_cons] at ht
    rw [warnings_append, warnings_passage]
    obtain rfl | ht := ht
    · exact ⟨i, _, n, rfl, hm, rfl, h, List.sublist_append_left _ _⟩
    · obtain ⟨j, r, o, item, quiet, kept, ran, sublist⟩ := ih rfl ht
      exact ⟨j, r, o, item, quiet, kept.trans (files hm h), ran,
        sublist.trans (List.sublist_append_right _ _)⟩

def Reports (w : Issued) (d : Diagnostic) : Prop := ∃ start, Wording.Says ⟨w, start⟩ d

structure TakenUp (ws : List Issued) (e : Emission) (handedOn : List Issued) : Prop where
  reported : ∃ ds : List Diagnostic, List.Forall₂ Reports ws ds ∧ ds.Sublist e.diagnostics
  kept : ∀ w ∈ ws, w ∉ handedOn

def issuedFor (file : String) (ds : List Diagnostic) : List Diagnostic :=
  ds.filter fun g => isIssued g && g.location.path == file

section course

variable {a : Assembly} {b : Builder} {m n : Machine} {e : Emission} {t : Trial} {d : Dependency}
  {file : String}

theorem loading_trial (h : (emit a b).run m = (.ok e, n)) (ht : t ∈ trials (course a b m).loading)
    (hd : t.item = .dependency d) :
    d ∈ a.dependencies ∧ t.start.quiet = t.start ∧ t.start.files = m.files ∧
      (d.load.run t.start).2.issued.Sublist (warnings (course a b m).events) := by
  obtain ⟨carried, -⟩ := emit_course h
  obtain ⟨_, _, _, _, _, _, ⟨o, before, after, gone, drained, parts⟩, -⟩ := carried.gone
  have ht' : t ∈ trials before := by
    rwa [parts, trials_append, drained.aside.trials, List.append_nil] at ht
  obtain ⟨i, r, o, item, quiet, files, ran, sublist⟩ := gone.of_mem_trials rfl ht'
  obtain rfl : d = i := Item.dependency.inj (hd.symm.trans item)
  have mem : Item.dependency d ∈ (trials before).map Trial.item := List.mem_map.2 ⟨t, ht', hd⟩
  rw [gone.items] at mem
  obtain ⟨d', member, same⟩ := List.mem_map.1 mem
  obtain rfl : d = d' := (Item.dependency.inj same).symm
  have started : (start a b m).files = m.files := by
    obtain ⟨o, -, labelled, resumed⟩ := run_label a b m
    have files := congrArg Machine.files (resumed o)
    rw [← labelled]
    exact files
  refine ⟨member, quiet, files.trans started, ?_⟩
  rw [Course.events_eq, parts]
  simp only [warnings_append, List.append_assoc]
  calc
    List.Sublist (d.load.run t.start).2.issued o.issued := (issued_bindOne ran).sublist
    List.Sublist _ (warnings before) := sublist
    List.Sublist _ _ := List.sublist_append_left _ _

theorem reports_of_says {ts : List Wording} {ws : List Issued} {ds : List Diagnostic}
    (worded : ts.map Wording.warning = ws) (said : List.Forall₂ Wording.Says ts ds) :
    List.Forall₂ Reports ws ds := by
  rw [← worded, List.forall₂_map_left_iff]
  exact said.imp fun t d reported => ⟨t.start, reported⟩

theorem forall₂_of_sublist {α β : Type} {R : α → β → Prop} {as some : List α} {bs : List β}
    (h : List.Forall₂ R as bs) (sublist : some.Sublist as) :
    ∃ ds : List β, List.Forall₂ R some ds ∧ ds.Sublist bs := by
  induction sublist generalizing bs with
  | slnil => exact ⟨[], .nil, List.nil_sublist _⟩
  | cons a sublist ih =>
    obtain _ | ⟨-, rest⟩ := h
    obtain ⟨ds, related, part⟩ := ih rest
    exact ⟨ds, related, part.cons _⟩
  | cons_cons a sublist ih =>
    obtain _ | ⟨first, rest⟩ := h
    obtain ⟨ds, related, part⟩ := ih rest
    exact ⟨_ :: ds, .cons first related, part.cons_cons _⟩

/-- Warnings about a file are taken up if it is one of the assembly's own, and handed on if not. -/
theorem takenUp_iff {ws all : List Issued} {own : List String}
    (reported : List.Forall₂ Reports (all.filter (isOwn own)) (e.diagnostics.filter isIssued))
    (sublist : ws.Sublist all) (about : ∀ w ∈ ws, w.file = file) :
    TakenUp ws e (all.filter (!isOwn own ·)) ↔ ws = [] ∨ file ∈ own := by
  constructor
  · intro taken
    cases hw : ws with
    | nil => exact .inl rfl
    | cons w rest =>
      right
      have mem : w ∈ ws := hw ▸ List.mem_cons_self
      by_contra foreign
      refine taken.kept w mem (List.mem_filter.2 ⟨sublist.subset mem, ?_⟩)
      rw [isOwn, about w mem]
      simpa using foreign
  · rintro (rfl | mem)
    · exact ⟨⟨[], .nil, List.nil_sublist _⟩, fun w hw => absurd hw List.not_mem_nil⟩
    · have kept : ∀ w ∈ ws, isOwn own w = true := fun w hw => by
        rw [isOwn, about w hw]
        exact List.contains_iff_mem.2 mem
      constructor
      · have mine := sublist.filter (isOwn own)
        rw [List.filter_eq_self.2 kept] at mine
        obtain ⟨ds, related, part⟩ := forall₂_of_sublist reported mine
        exact ⟨ds, related, part.trans List.filter_sublist⟩
      · intro w hw handed
        have foreign := (List.mem_filter.1 handed).2
        rw [kept w hw] at foreign
        cases foreign

theorem countP_eq_of_forall₂ {α β : Type} {R : α → β → Prop} {p : α → Bool} {q : β → Bool}
    {as : List α} {bs : List β} (h : List.Forall₂ R as bs) (same : ∀ a b, R a b → p a = q b) :
    as.countP p = bs.countP q := by
  induction h with
  | nil => rfl
  | cons first rest ih => rw [List.countP_cons, List.countP_cons, ih, same _ _ first]

theorem length_issuedFor {all : List Issued} {own : List String}
    (reported : List.Forall₂ Reports (all.filter (isOwn own)) (e.diagnostics.filter isIssued)) :
    (issuedFor file e.diagnostics).length =
      if file ∈ own then all.countP (fun w => w.file == file) else 0 := by
  have path (w : Issued) (d : Diagnostic) (h : Reports w d) :
      (w.file == file) = (d.location.path == file) := by
    obtain ⟨_, _, _, _, -, -, rfl⟩ := h
    rfl
  have split : issuedFor file e.diagnostics =
      (e.diagnostics.filter isIssued).filter fun g => g.location.path == file := by
    rw [issuedFor, List.filter_filter]
    refine List.filter_congr fun g _ => Bool.and_comm _ _
  rw [split, ← List.countP_eq_length_filter, ← countP_eq_of_forall₂ reported path,
    List.countP_filter]
  split
  · next mem =>
    refine List.countP_congr fun w _ => ?_
    rw [Bool.and_eq_true, beq_iff_eq]
    constructor
    · exact And.left
    · rintro rfl
      exact ⟨rfl, List.contains_iff_mem.2 mem⟩
  · next foreign =>
    rw [List.countP_eq_zero]
    intro w _ both
    rw [Bool.and_eq_true, beq_iff_eq] at both
    rw [isOwn, both.1] at both
    exact foreign (List.contains_iff_mem.1 both.2)

theorem mem_ownFiles : file ∈ ownFiles a ↔
    (∃ s ∈ a.sources, s.file = file) ∨ ∃ d ∈ a.dependencies, file ∈ d.spelled := by
  have parts : ownFiles a =
      a.sources.map Source.file ++ a.dependencies.flatMap Dependency.spelled := rfl
  rw [parts, List.mem_append, List.mem_map, List.mem_flatMap]

/-- What becomes of the warnings about a file that is run when a dependency is loaded. -/
structure Attributed (a : Assembly) (c : Course) (m n : Machine) (e : Emission) (start : Machine)
    (d : Dependency) (file : String) : Prop where
  runs : ∃ name text search,
    d.load.run start = (Dependency.runFile name file text search).run start
  handed : Handed (foreignOf (ownFiles a) c.events) (m.resume c.left) n
  taken : TakenUp (d.warningsOf file start) e (foreignOf (ownFiles a) c.events) ↔
    d.warningsOf file start = [] ∨ file ∈ ownFiles a
  number : (issuedFor file e.diagnostics).length =
    if file ∈ ownFiles a then (warnings c.events).countP (fun w => w.file == file) else 0
  /-- The name of the file is known from the dependency itself, or from something else. -/
  named : file ∈ ownFiles a ↔
    (∃ location, d.location = some location ∧ Dependency.WellSpelled m.files location) ∨
      (∃ s ∈ a.sources, s.file = file) ∨ ∃ other ∈ a.dependencies, other ≠ d ∧ file ∈ other.spelled

theorem attributed (h : (emit a b).run m = (.ok e, n))
    (absolute : Path.isAbsolute m.files.working = true) (ht : t ∈ trials (course a b m).loading)
    (hd : t.item = .dependency d) (executed : d.executed? t.start = some file) :
    Attributed a (course a b m) m n e t.start d file := by
  obtain ⟨worded, said, handed⟩ := sorted_warnings h
  have reported := reports_of_says worded said
  obtain ⟨member, quiet, files, sublist⟩ := loading_trial h ht hd
  have part : (d.warningsOf file t.start).Sublist (warnings (course a b m).events) := by
    rw [Dependency.warningsOf, quiet]
    exact List.filter_sublist.trans sublist
  have about : ∀ w ∈ d.warningsOf file t.start, w.file = file := fun w hw => by
    simpa using (List.mem_filter.1 hw).2
  refine ⟨Dependency.run_load_of_executed executed, handed, takenUp_iff reported part about,
    length_issuedFor reported, ?_⟩
  · have spelled := Dependency.mem_spelled_iff executed (by rwa [files])
    rw [files] at spelled
    rw [mem_ownFiles, ← spelled]
    constructor
    · rintro (source | ⟨other, mem, names⟩)
      · exact .inr (.inl source)
      · by_cases same : other = d
        · exact .inl (same ▸ names)
        · exact .inr (.inr ⟨other, mem, same, names⟩)
    · rintro (names | source | ⟨other, mem, -, names⟩)
      · exact .inr ⟨d, member, names⟩
      · exact .inl source
      · exact .inr ⟨other, mem, names⟩

theorem silent_of_not_executed (h : (emit a b).run m = (.ok e, n))
    (ht : t ∈ trials (course a b m).loading) (hd : t.item = .dependency d)
    (located : d.location ≠ none) (idle : d.executed? t.start = none) :
    (d.load.run t.start.quiet).2.issued = [] := by
  obtain ⟨-, quiet, -⟩ := loading_trial h ht hd
  rw [quiet, Dependency.issued_load located idle, ← quiet]
  rfl

end course

theorem emit_attributes {a : Assembly} {b : Builder} {m n : Machine} {e : Emission}
    (h : (emit a b).run m = (.ok e, n)) (absolute : Path.isAbsolute m.files.working = true)
    {t : Trial} (ht : t ∈ trials (course a b m).loading) {d : Dependency}
    (hd : t.item = .dependency d) :
    (∀ file, d.executed? t.start = some file →
      Attributed a (course a b m) m n e t.start d file) ∧
      (d.location ≠ none → d.executed? t.start = none →
        (d.load.run t.start.quiet).2.issued = []) :=
  ⟨fun _ executed => attributed h absolute ht hd executed,
    fun located idle => silent_of_not_executed h ht hd located idle⟩

/-- A file with one warning, referred to by its absolute path. -/
theorem emit_attributes_absolute :
    let d : Dependency := { location := some "/work/lib.py" }
    let a : Assembly := { name := "kiln.test.Unit", dependencies := [d] }
    let b : Builder := ⟨"kiln.test.Unit", "kiln.test", .runAndCollect, 0⟩
    let m : Machine :=
      { heap := #[.module {}], files := Files.ofTexts "/work" [("lib.py", "1 is 1\n")] [] }
    ∃ e n start, (emit a b).run m = (.ok e, n) ∧
      (d.warningsOf "/work/lib.py" start).length = 1 ∧
      Handed (foreignOf (ownFiles a) (course a b m).events) (m.resume (course a b m).left) n ∧
      TakenUp (d.warningsOf "/work/lib.py" start) e
        (foreignOf (ownFiles a) (course a b m).events) := by
  intro d a b m
  have emitted : ((emit a b).run m).1.toOption.map Emission.success = some true := by decide +kernel
  have seen : (trials (course a b m).loading).map (fun t =>
      (d.executed? t.start, (d.warningsOf "/work/lib.py" t.start).length)) =
      [(some "/work/lib.py", 1)] := by decide +kernel
  have known : "/work/lib.py" ∈ ownFiles a := by decide +kernel
  obtain ⟨e, n, ran, -⟩ := returned emitted
  obtain ⟨t, only, values⟩ := List.map_eq_singleton_iff.1 seen
  obtain ⟨executed, one⟩ := Prod.mk.inj values
  have item : t.item = .dependency d := by
    have items := (emit_course ran).1.loading_items
    rw [only] at items
    exact (List.cons.inj items).1
  have absolute : Path.isAbsolute m.files.working = true := by decide +kernel
  have loaded : t ∈ trials (course a b m).loading := only ▸ List.mem_cons_self
  have attributed := (emit_attributes ran absolute loaded item).1 _ executed
  exact ⟨e, n, t.start, ran, one, attributed.handed, attributed.taken.2 (.inr known)⟩

/-- The file goes by its absolute path, and a relative reference to it does not spell that: its warning
is handed on. -/
theorem emit_unattributed :
    let text := "import warnings\nwarnings.warn('old')\n"
    let unit (location : String) : Assembly :=
      { name := "kiln.test.Unit", dependencies := [{ location := some location }] }
    let b : Builder := ⟨"kiln.test.Unit", "kiln.test", .runAndCollect, 0⟩
    let m : Machine :=
      { heap := #[.module {}, .module (.ofList [("warn", .routine "warnings.warn")])]
        modules := .ofList [("warnings", .object 1)]
        files := Files.ofTexts "/work" [("lib.py", text)] [] }
    (["lib.py", "/work/lib.py"].map fun location =>
        (trials (course (unit location) b m).loading).map fun t =>
          ({ location := some location } : Dependency).executed? t.start) =
      [[some "/work/lib.py"], [some "/work/lib.py"]] ∧
    (["lib.py", "/work/lib.py"].map fun location =>
        (((emit (unit location) b).run m).1.toOption.map fun e =>
            (issuedFor "/work/lib.py" e.diagnostics).length,
          ((emit (unit location) b).run m).2.issued.map Issued.file)) =
      [(some 0, ["/work/lib.py"]), (some 1, [])] := by
  decide +kernel

end Emission

end Stencil
