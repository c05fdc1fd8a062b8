import Stencil.Proofs.Emission.Attribution
import Stencil.Proofs.Emission.Order

/-!
Sources that were read before. A source keeps what its text reads as and what was wrong with it, and
whoever reads it later is told the same; the warnings of reading it were issued the first time, to
whoever listened then. So an emission finds the same errors in its sources and the same warnings of
checking them whenever they were read, and the warnings of reading them only if they are new to it
(`emit_rereads`).
-/

namespace Stencil

open Script Run

namespace Source

def noted (s : Source) : List Issued :=
  (parse s.text).2.map fun w => .plain "DeprecationWarning" w.text s.file w.line

def remarked (level : Int) (s : Source) : List Issued :=
  match s.reading with
  | .error _ => []
  | .ok tree =>
    (tree.check (1 ≤ level)).warnings.map fun w => .plain "SyntaxWarning" w.2 s.file w.1

def issues (level : Int) (s : Source) (m : Machine) : List Issued :=
  (if s.id ∈ m.read then [] else s.noted) ++ s.remarked level

end Source

theorem Script.Program.run_issueAll (category file : String) (ws : List (Nat × String))
    (m : Machine) :
    (issueAll category file ws).run m =
      (.ok (), { m with issued := m.issued ++ ws.map fun w => .plain category w.2 file w.1 }) := by
  induction ws generalizing m with
  | nil =>
    rw [List.map_nil, List.append_nil]
    rfl
  | cons w ws ih =>
    rw [issueAll, run_bind, issue, note, run_update]
    dsimp only
    rw [ih]
    simp [Machine.resume, Machine.quiet]

namespace Source

variable {level : Int} {s : Source} {m n : Machine}

theorem run_read_of_known (h : s.id ∈ m.read) : s.read.run m = (.ok s.tree?, m) := by
  have known : m.quiet.read.contains s.id = true := List.contains_iff_mem.2 h
  rw [read, run_bind, run_get]
  dsimp only
  rw [if_pos known]
  rfl

theorem run_read_of_fresh (h : s.id ∉ m.read) :
    s.read.run m =
      (.ok s.tree?, { m with read := s.id :: m.read, issued := m.issued ++ s.noted }) := by
  have fresh : ¬m.quiet.read.contains s.id = true := fun known => h (List.contains_iff_mem.1 known)
  rw [read, run_bind, run_get]
  dsimp only
  rw [if_neg fresh, run_bind, run_update]
  dsimp only
  rw [run_bind, Program.read, run_bind, Program.run_issueAll, List.map_map]
  simp only [Machine.resume, Machine.quiet, List.append_nil]
  rfl

theorem of_mem_issues {w : Issued} (h : w ∈ s.issues level m) :
    ∃ category text line, w = .plain category text s.file line := by
  rw [issues, List.mem_append] at h
  obtain h | h := h
  · split at h
    · cases h
    · obtain ⟨_, -, rfl⟩ := List.mem_map.1 h
      exact ⟨_, _, _, rfl⟩
  · unfold remarked at h
    split at h
    · cases h
    · obtain ⟨_, -, rfl⟩ := List.mem_map.1 h
      exact ⟨_, _, _, rfl⟩

theorem run_read (s : Source) (m : Machine) :
    ∃ o, s.read.run m = (.ok s.tree?, o) ∧
      o.issued = m.issued ++ (if s.id ∈ m.read then [] else s.noted) ∧
      ∀ i, i ∈ o.read ↔ i = s.id ∨ i ∈ m.read := by
  by_cases h : s.id ∈ m.read
  · refine ⟨m, run_read_of_known h, by simp [h], fun i => ?_⟩
    refine (or_iff_right_of_imp ?_).symm
    rintro rfl
    exact h
  · exact ⟨_, run_read_of_fresh h, by simp [h], fun i => List.mem_cons⟩

end Source

theorem Script.Program.issued_ofTree {t : Tree} {file : String} {level : Int} {m n : Machine}
    {r : Except Misuse Program} (h : (ofTree t file level).run m = (.ok r, n)) :
    n.issued = m.issued ++
        (t.check (1 ≤ level)).warnings.map (fun w => .plain "SyntaxWarning" w.2 file w.1) ∧
      n.read = m.read := by
  unfold ofTree at h
  split at h
  · rw [run_bind, run_issueAll] at h
    dsimp only at h
    split at h <;> cases h <;> exact ⟨rfl, rfl⟩
  · obtain ⟨_, _, _, h⟩ := of_run_bind h
    cases h

namespace Emission

theorem issued_checkOne {level : Int} {s : Source} {m n : Machine} {r : Except Diagnostic Program}
    (h : (checkOne level s).run m = (.ok r, n)) :
    n.issued = m.issued ++ s.issues level m ∧ ∀ i, i ∈ n.read ↔ i = s.id ∨ i ∈ m.read := by
  obtain ⟨o, read, issued, known⟩ := s.run_read m
  rw [checkOne, run_bind, read] at h
  dsimp only at h
  unfold Source.issues Source.remarked
  cases hr : s.reading with
  | error e =>
    rw [hr] at h
    cases h
    exact ⟨by rw [issued, List.append_nil], known⟩
  | ok tree =>
    rw [hr] at h
    obtain ⟨made, o', first, last⟩ := of_run_bind h
    obtain ⟨issued', read'⟩ := Program.issued_ofTree first
    have left : n = o' := by cases made <;> cases last <;> rfl
    subst left
    refine ⟨by rw [issued', issued, List.append_assoc], fun i => ?_⟩
    rw [read', known]

def Trial.issues (level : Int) (t : Trial) : List Issued :=
  match t.item with
  | .source s => s.issues level t.start
  | _ => []

theorem Gone.warnings_eq {level : Int} {ss : List Source} {m n : Machine} {ps : List Program}
    {es : List Event} (h : Gone .source (checkOne level) ss m ps n es) (hm : m.quiet = m) :
    warnings es = (trials es).flatMap (Trial.issues level) := by
  have silent {m : Machine} (hm : m.quiet = m) : m.issued = [] := by
    rw [← hm]
    rfl
  induction h with
  | nil m => rfl
  | fault h later ih | well h later ih =>
    have issued := (issued_checkOne h).1
    rw [silent hm, List.nil_append] at issued
    rw [warnings_append, warnings_passage, trials_passage_append, List.flatMap_cons, ih rfl, issued]
    rfl

def Trial.Fresh (t : Trial) : Prop := ∀ s, t.item = .source s → s.id ∉ t.start.read

def Trial.Known (t : Trial) : Prop := ∀ s, t.item = .source s → s.id ∈ t.start.read

theorem Gone.reads {level : Int} {ss : List Source} {m n : Machine} {ps : List Program}
    {es : List Event} {t : Trial} (h : Gone .source (checkOne level) ss m ps n es)
    (ht : t ∈ trials es) :
    ∃ before s after, ss = before ++ s :: after ∧ t.item = .source s ∧
      ∀ i, i ∈ t.start.read ↔ i ∈ before.map Source.id ∨ i ∈ m.read := by
  have later {s : Source} {rest : List Source} {m n : Machine} {r : Except Diagnostic Program}
      (h : (checkOne level s).run m = (.ok r, n)) (ih : ∃ before s' after,
        rest = before ++ s' :: after ∧ t.item = .source s' ∧
          ∀ i, i ∈ t.start.read ↔ i ∈ before.map Source.id ∨ i ∈ n.quiet.read) :
      ∃ before s' after, s :: rest = before ++ s' :: after ∧ t.item = .source s' ∧
        ∀ i, i ∈ t.start.read ↔ i ∈ before.map Source.id ∨ i ∈ m.read := by
    obtain ⟨before, s', after, rfl, item, known⟩ := ih
    refine ⟨s :: before, s', after, rfl, item, fun i => ?_⟩
    have left : i ∈ n.quiet.read ↔ i = s.id ∨ i ∈ m.read := (issued_checkOne h).2 i
    rw [known, left, List.map_cons, List.mem_cons, or_left_comm, or_assoc]
  induction h with
  | nil m => simp [trials] at ht
  | @fault s rest m n o d ps es h _ ih | @well s rest m n o p ps es h _ ih =>
    rw [trials_passage_append, List.mem_cons] at ht
    obtain rfl | ht := ht
    · exact ⟨[], s, rest, rfl, rfl, by simp⟩
    · exact later h (ih ht)

theorem Checks.reads {a : Assembly} {m n : Machine} {ps : List Program} {es : List Event} {t : Trial}
    (h : Checks a m ps n es) (ht : t ∈ trials es) :
    ∃ before s after, a.sources = before ++ s :: after ∧ t.item = .source s ∧
      ∀ i, i ∈ t.start.read ↔ i ∈ before.map Source.id ∨ i ∈ m.read := by
  obtain ⟨_, _, gone, same, -⟩ := h.gone
  exact gone.reads (same ▸ ht)

def Course.findings (c : Course) : List Diagnostic := found c.checking

def inWords (w : Issued) : Diagnostic :=
  diagnosticOf w (match w.kind, w.message with
    | .library name, .text s => (Library.split name).2 ++ ": " ++ s
    | _, _ => "")

theorem diagnostic?_plain (category text file : String) (line : Int) (m : Machine) :
    Wording.diagnostic? ⟨.plain category text file line, m⟩ =
      some (inWords (.plain category text file line)) := rfl

theorem voiced_worded {ws : List Issued} {m : Machine}
    (h : ∀ w ∈ ws, ∃ category text file line, w = .plain category text file line) :
    voiced (ws.map fun w => .worded ⟨w, m⟩) = ws.map inWords := by
  induction ws with
  | nil => rfl
  | cons w rest ih =>
    rw [List.forall_mem_cons] at h
    obtain ⟨⟨category, text, file, line, rfl⟩, h⟩ := h
    exact (List.filterMap_cons_some (diagnostic?_plain category text file line m)).trans
      (congrArg _ (ih h))

/-- The drain after sources were checked puts everything into words that was issued about them, and
leaves the machine as it was. -/
theorem Checks.drained {a : Assembly} {m n : Machine} {ps : List Program} {es : List Event}
    (h : Checks a m ps n es) (hm : m.quiet = m) :
    ∃ before, Gone .source (checkOne a.options.optimize) a.sources m ps n before ∧
      (∀ w ∈ warnings before, ∃ category text file line, w = .plain category text file line) ∧
      es = before ++ (warnings before).map fun w => .worded ⟨w, n⟩ := by
  obtain ⟨o, before, after, gone, drained, rfl⟩ := h
  have plain : ∀ w ∈ warnings before, (∃ category text file line,
      w = .plain category text file line) ∧ isOwn (ownFiles a) w = true := by
    intro w hw
    rw [gone.warnings_eq hm] at hw
    obtain ⟨t, ht, hw⟩ := List.mem_flatMap.1 hw
    obtain ⟨earlier, s, later, split, item, -⟩ := gone.reads ht
    have mem : s ∈ a.sources := split ▸ List.mem_append_right _ List.mem_cons_self
    rw [Trial.issues, item] at hw
    obtain ⟨category, text, line, rfl⟩ := Source.of_mem_issues hw
    exact ⟨⟨category, text, s.file, line, rfl⟩,
      List.contains_iff_mem.2 (mem_ownFiles.2 (.inl ⟨s, mem, rfl⟩))⟩
  obtain ⟨rfl, rfl⟩ := drained.of_isPlain (fun w hw => by
    obtain ⟨⟨_, _, _, _, rfl⟩, -⟩ := plain w hw
    rfl) (gone.quiet hm)
  refine ⟨before, gone, fun w hw => (plain w hw).1, ?_⟩
  rw [List.filter_eq_self.2 fun w hw => (plain w hw).2]

theorem Checks.voiced_eq {a : Assembly} {m n : Machine} {ps : List Program} {es : List Event}
    (h : Checks a m ps n es) (hm : m.quiet = m) :
    voiced es = ((trials es).flatMap (Trial.issues a.options.optimize)).map inWords := by
  obtain ⟨before, gone, plain, rfl⟩ := h.drained hm
  have unworded : voiced before = [] := by rw [voiced, gone.wordings]; rfl
  have untried (ws : List Issued) : trials (ws.map fun w => .worded ⟨w, n⟩) = [] := by
    simp [trials, Event.trial?]
  rw [trials_append, untried, List.append_nil, ← gone.warnings_eq hm, voiced_append, unworded,
    voiced_worded plain]
  rfl

namespace Carried

variable {a : Assembly} {module : Nat} {m : Machine} {c : Course}

theorem faults_checking (h : Carried a module m c) :
    faults c.checking = a.sources.filterMap fun s => faultOf (s.verdict a.options.optimize) := by
  obtain ⟨_, _, _, _, _, _, -, -, gone, -⟩ := h.gone
  let fault? : Item → Option Diagnostic
    | .source s => faultOf (s.verdict a.options.optimize)
    | _ => none
  have told : ∀ t ∈ trials c.checking, t.fault = fault? t.item :=
    gone.fits fun s m r n ran => by
      rw [of_run_checkOne ran]
  calc faults c.checking = (trials c.checking).filterMap (fault? ∘ Trial.item) := by
        rw [faults_eq]
        exact List.filterMap_congr told
    _ = (a.sources.map Item.source).filterMap fault? := by
        rw [← List.filterMap_map, gone.items]
    _ = a.sources.filterMap fun s => faultOf (s.verdict a.options.optimize) := by
        rw [List.filterMap_map]
        rfl

theorem flatMap_issues (h : Carried a module m c) {issues : Source → List Issued}
    (alike : ∀ t ∈ trials c.checking, ∀ s, t.item = .source s →
      s.issues a.options.optimize t.start = issues s) :
    (trials c.checking).flatMap (Trial.issues a.options.optimize) = a.sources.flatMap issues := by
  let issued : Item → List Issued
    | .source s => issues s
    | _ => []
  have told : ∀ t ∈ trials c.checking, t.issues a.options.optimize = issued t.item := by
    intro t ht
    cases hi : t.item with
    | source s => simp only [Trial.issues, hi, issued, alike t ht s hi]
    | _ => simp only [Trial.issues, hi, issued]
  rw [List.flatMap_congr told, ← List.flatMap_map Trial.item issued, h.checking_items,
    List.flatMap_map]

theorem findings_eq (h : Carried a module m c) (hm : m.quiet = m) :
    c.findings =
      (a.sources.filterMap fun s => faultOf (s.verdict a.options.optimize)) ++
        ((trials c.checking).flatMap (Trial.issues a.options.optimize)).map inWords := by
  obtain ⟨_, _, _, _, _, _, hl, ht, hc, -⟩ := h.gone
  have stage := h.accounted c.checking (by simp [Course.stages])
  rw [Course.findings, stage.found, h.faults_checking, Checks.voiced_eq hc (ht.quiet (hl.quiet hm))]

end Carried

structure Rereads (a : Assembly) (c c' : Course) : Prop where
  /-- The errors are the same, whatever was read before. -/
  errors : faults c.checking = faults c'.checking
  /-- What one who comes first finds in excess is the warnings of reading. -/
  first : (∀ t ∈ trials c.checking, t.Fresh) → (∀ t ∈ trials c'.checking, t.Known) →
    (c.findings = c'.findings ↔ ∀ s ∈ a.sources, (parse s.text).2 = [])
  fresh : (∀ t ∈ trials c.checking, t.Fresh) → (∀ t ∈ trials c'.checking, t.Fresh) →
    c.findings = c'.findings
  known : (∀ t ∈ trials c.checking, t.Known) → (∀ t ∈ trials c'.checking, t.Known) →
    c.findings = c'.findings

theorem length_flatMap_append {α β : Type} (f g : α → List β) (l : List α) :
    (l.flatMap fun x => f x ++ g x).length = (l.flatMap f).length + (l.flatMap g).length := by
  induction l with
  | nil => rfl
  | cons x l ih =>
    simp only [List.flatMap_cons, List.length_append, ih]
    omega

namespace Carried

variable {a : Assembly} {module module' : Nat} {m m' : Machine} {c c' : Course}

theorem findings_of_fresh (h : Carried a module m c) (hm : m.quiet = m)
    (fresh : ∀ t ∈ trials c.checking, t.Fresh) :
    c.findings =
      (a.sources.filterMap fun s => faultOf (s.verdict a.options.optimize)) ++
        (a.sources.flatMap fun s => s.noted ++ s.remarked a.options.optimize).map inWords := by
  rw [h.findings_eq hm, h.flatMap_issues fun t ht s item => ?_]
  rw [Source.issues, if_neg (fresh t ht s item)]

theorem findings_of_known (h : Carried a module m c) (hm : m.quiet = m)
    (known : ∀ t ∈ trials c.checking, t.Known) :
    c.findings =
      (a.sources.filterMap fun s => faultOf (s.verdict a.options.optimize)) ++
        (a.sources.flatMap (Source.remarked a.options.optimize)).map inWords := by
  rw [h.findings_eq hm, h.flatMap_issues fun t ht s item => ?_]
  rw [Source.issues, if_pos (known t ht s item), List.nil_append]

theorem rereads (h : Carried a module m c) (h' : Carried a module' m' c') (hm : m.quiet = m)
    (hm' : m'.quiet = m') : Rereads a c c' where
  errors := by rw [h.faults_checking, h'.faults_checking]
  first fresh known := by
    rw [h.findings_of_fresh hm fresh, h'.findings_of_known hm' known, List.append_cancel_left_eq]
    constructor
    · intro same s hs
      have lengths := congrArg List.length same
      rw [List.length_map, List.length_map, length_flatMap_append] at lengths
      have silent : a.sources.flatMap Source.noted = [] := List.length_eq_zero_iff.1 (by omega)
      exact List.map_eq_nil_iff.1 (List.flatMap_eq_nil_iff.1 silent s hs)
    · intro silent
      congr 1
      refine List.flatMap_congr fun s hs => ?_
      rw [Source.noted, silent s hs]
      rfl
  fresh one other := by rw [h.findings_of_fresh hm one, h'.findings_of_fresh hm' other]
  known one other := by rw [h.findings_of_known hm one, h'.findings_of_known hm' other]

end Carried

theorem Stage.left_of_nil {ι α : Type} {own : List String} {item : ι → Item}
    {step : ι → Run (Except Diagnostic α)} {m n : Machine} {as : List α} {es : List Event}
    (h : Stage own (Gone item step [] m as) n es) : n = m := by
  obtain ⟨o, before, after, gone, drained, rfl⟩ := h
  cases gone
  cases drained
  rfl

theorem checking_of_plain {a : Assembly} {b : Builder} {m : Machine} {c : Course}
    (h : Carried a b.module (start a b m) c) (dependencies : a.dependencies = [])
    (usings : a.options.usings = []) :
    ((∀ s ∈ a.sources, s.id ∈ m.read) → ∀ t ∈ trials c.checking, t.Known) ∧
      ((∀ s ∈ a.sources, s.id ∉ m.read) → (a.sources.map Source.id).Nodup →
        ∀ t ∈ trials c.checking, t.Fresh) := by
  obtain ⟨m₁, m₂, m₃, _, _, _, hl, ht, hc, -⟩ := h.gone
  have found : m₂.read = m.read := by
    rw [Loads, dependencies] at hl
    rw [Takes, usings] at ht
    obtain ⟨heap, labelled⟩ := writes_label a b.module m.quiet
    rw [Stage.left_of_nil ht, Stage.left_of_nil hl, start, labelled]
    rfl
  constructor
  · intro all t ht s item
    obtain ⟨before, s', after, split, item', known⟩ := Checks.reads hc ht
    obtain rfl : s = s' := Item.source.inj (item.symm.trans item')
    rw [known, found]
    exact .inr (all s (split ▸ List.mem_append_right _ List.mem_cons_self))
  · intro none distinct t ht s item
    obtain ⟨before, s', after, split, item', known⟩ := Checks.reads hc ht
    obtain rfl : s = s' := Item.source.inj (item.symm.trans item')
    rw [known, found]
    rintro (earlier | earlier)
    · rw [split, List.map_append, List.map_cons] at distinct
      exact (List.nodup_append.1 distinct).2.2 _ earlier _ List.mem_cons_self rfl
    · exact none s (split ▸ List.mem_append_right _ List.mem_cons_self) earlier

theorem diagnostics_eq {a : Assembly} {b : Builder} {m n : Machine} {e : Emission}
    (h : (emit a b).run m = (.ok e, n)) :
    e.diagnostics = found (course a b m).loading ++ found (course a b m).taking ++
      (course a b m).findings ++ found (course a b m).running := by
  obtain ⟨-, diagnostics, -, -⟩ := emit_course h
  simpa [Course.events_eq, Course.findings] using diagnostics

/-- Two emissions of an assembly find the same in its sources, but for the warnings of reading. -/
theorem emit_rereads {a : Assembly} {b b' : Builder} {m m' n n' : Machine} {e e' : Emission}
    (h : (emit a b).run m = (.ok e, n)) (h' : (emit a b').run m' = (.ok e', n')) :
    Rereads a (course a b m) (course a b' m') ∧
      e.diagnostics = found (course a b m).loading ++ found (course a b m).taking ++
        (course a b m).findings ++ found (course a b m).running ∧
      e'.diagnostics = found (course a b' m').loading ++ found (course a b' m').taking ++
        (course a b' m').findings ++ found (course a b' m').running :=
  ⟨(emit_course h).1.rereads (emit_course h').1 rfl rfl, diagnostics_eq h, diagnostics_eq h'⟩

/-- A source with an escape that means nothing, emitted before it was read and after. -/
theorem emit_rereads_escape :
    let s : Source := ⟨1, "x = '\\d'\n", "a.py"⟩
    let a : Assembly := { name := "kiln.test.Unit", sources := [s] }
    let b : Builder := ⟨"kiln.test.Unit", "kiln.test", .runAndCollect, 0⟩
    let m : Machine := { heap := #[.module {}] }
    let m' : Machine := (s.read.run m).2
    ∃ e n e' n', (emit a b).run m = (.ok e, n) ∧ (emit a b).run m' = (.ok e', n') ∧
      (∀ t ∈ trials (course a b m).checking, t.Fresh) ∧
      (∀ t ∈ trials (course a b m').checking, t.Known) ∧
      (course a b m).findings ≠ (course a b m').findings := by
  intro s a b m m'
  have first : ((emit a b).run m).1.toOption.map Emission.success = some true := by decide +kernel
  have again : ((emit a b).run m').1.toOption.map Emission.success = some true := by decide +kernel
  obtain ⟨e, n, ran, -⟩ := returned first
  obtain ⟨e', n', ran', -⟩ := returned again
  have fresh := (checking_of_plain (emit_course ran).1 rfl rfl).2 (by simp [a, m]) (by simp [a])
  have known := (checking_of_plain (emit_course ran').1 rfl rfl).1 (by
    have read : s.id ∈ m'.read := by decide +kernel
    simpa [a] using read)
  have noted : ¬∀ s ∈ a.sources, (parse s.text).2 = [] := by decide +kernel
  exact ⟨e, n, e', n', ran, ran', fresh, known,
    ((emit_rereads ran ran').1.first fresh known).not.2 noted⟩

/-- The report of an emission has the warning of reading if the source is new to it, and is empty if the
source was read before. -/
theorem emit_unrepeated :
    let s : Source := ⟨1, "x = '\\d'\n", "a.py"⟩
    let a : Assembly := { name := "kiln.test.Unit", sources := [s] }
    let b : Builder := ⟨"kiln.test.Unit", "kiln.test", .runAndCollect, 0⟩
    let m : Machine := { heap := #[.module {}] }
    ((emit a b).run m).1.toOption.map Emission.diagnostics =
      some [⟨Diagnostic.issuedWarning, .warning, "DeprecationWarning: invalid escape sequence '\\d'",
        ⟨"a.py", 0, 0⟩⟩] ∧
    ((emit a b).run (s.read.run m).2).1.toOption.map Emission.diagnostics = some [] := by
  decide +kernel

end Emission

end Stencil
