import Stencil.Proofs.Emission.Course

/-!
What is known of the stages that were gone through to their end: every item was gone through once and
in its place, bodies up to the first fault, and what can be wrong with an item is told by what it is.
-/

namespace Stencil

open Script Run

def Script.Program.made (t : Tree) (file : String) (level : Int) : Except Misuse Program :=
  match (t.check (1 ≤ level)).fault with
  | some misuse => .error misuse
  | none =>
    let trimming := Trimming.ofLevel level t.body
    .ok ⟨file, trimming.withoutDoc (trimming.stmts t.body)⟩

def Source.verdict (level : Int) (s : Source) : Except Diagnostic Program :=
  match s.reading with
  | .error e => .error (faultOf s.path e)
  | .ok tree => (Program.made tree s.file level).mapError (misuseOf s.path)

theorem Source.of_verdict_error {level : Int} {s : Source} {d : Diagnostic}
    (h : s.verdict level = .error d) :
    (∃ e, s.reading = .error e ∧ d = faultOf s.path e) ∨
    ∃ tree misuse, s.reading = .ok tree ∧ Program.made tree s.file level = .error misuse ∧
      d = misuseOf s.path misuse := by
  unfold verdict at h
  cases hr : s.reading with
  | error e =>
    rw [hr] at h
    cases h
    exact .inl ⟨e, rfl, rfl⟩
  | ok tree =>
    rw [hr] at h
    change (Program.made tree s.file level).mapError (misuseOf s.path) = .error d at h
    cases hm : Program.made tree s.file level <;> rw [hm] at h <;> cases h
    exact .inr ⟨tree, _, rfl, hm, rfl⟩

theorem Source.isError_of_verdict {level : Int} {s : Source} {d : Diagnostic}
    (h : s.verdict level = .error d) : d.isError = true := by
  obtain ⟨e, -, rfl⟩ | ⟨tree, misuse, -, -, rfl⟩ := of_verdict_error h
  · cases e <;> rfl
  · rfl

theorem Source.nonneg_of_verdict {level : Int} {s : Source} {d : Diagnostic}
    (h : s.verdict level = .error d) : 0 ≤ d.location.line ∧ 0 ≤ d.location.column := by
  obtain ⟨e, -, rfl⟩ | ⟨tree, misuse, -, -, rfl⟩ := of_verdict_error h
  · cases e with
    | nullCharacter => exact ⟨Int.le_refl 0, Int.le_refl 0⟩
    | fault f => exact Location.ofOneBased_nonneg _ _ _
  · exact Location.ofOneBased_nonneg _ _ _

theorem Script.Program.of_run_ofTree {t : Tree} {file : String} {level : Int} {m n : Machine}
    {r : Except Misuse Program} (h : (ofTree t file level).run m = (.ok r, n)) :
    r = made t file level := by
  unfold ofTree at h
  split at h
  · obtain ⟨_, _, _, h⟩ := of_run_bind h
    cases hf : (t.check (1 ≤ level)).fault <;> rw [hf] at h <;> cases h <;> simp [made, hf]
  · obtain ⟨_, _, _, h⟩ := of_run_bind h
    cases h

namespace Emission

/-- What an item has come to: what was wrong with it, if anything, and why it says so. -/
def Trial.Fits (a : Assembly) (module : Nat) (loaded : List Nat) (t : Trial) : Prop :=
  match t.item, t.fault with
  | .dependency d, none => ∃ l n, d.load.run t.start = (.ok l, n)
  | .dependency d, some g => ∃ error placed n what,
      d.load.run t.start = (.error (.raised error placed), n) ∧ g = unloadable d what
  | .usage name, none => ∃ found n,
      (findNamespace name loaded).run t.start = (.ok (some found), n)
  | .usage name, some g =>
      (∃ n, (findNamespace name loaded).run t.start = (.ok none, n)) ∧ g = unknownNamespace name
  | .source s, fault => fault = faultOf (s.verdict a.options.optimize)
  | .body p, none => ∃ n, (p.run module).run t.start = (.ok (), n)
  | .body p, some g => ∃ error placed n what trace,
      (p.run module).run t.start = (.error (.raised error placed), n) ∧
        g = crash what (locationOf a.sources trace)

def Trial.outcome (t : Trial) : Item × Option Diagnostic := (t.item, t.fault)

inductive Fault (a : Assembly) : Item → Diagnostic → Prop
  | unloadable (d : Dependency) (what : String) : Fault a (.dependency d) (unloadable d what)
  | unknown (name : String) : Fault a (.usage name) (unknownNamespace name)
  | refused {s : Source} {g : Diagnostic} (h : s.verdict a.options.optimize = .error g) :
      Fault a (.source s) g
  | crash (p : Program) (what : String) (trace : List Mark) :
      Fault a (.body p) (crash what (locationOf a.sources trace))

theorem Trial.Fits.fault {a : Assembly} {module : Nat} {loaded : List Nat} {t : Trial}
    {g : Diagnostic} (h : t.Fits a module loaded) (hg : g ∈ t.fault) : Fault a t.item g := by
  obtain ⟨i, start, fault⟩ := t
  cases hg
  cases i with
  | dependency d =>
    obtain ⟨error, placed, n, what, _, rfl⟩ := h
    exact .unloadable d what
  | usage name =>
    obtain ⟨_, rfl⟩ := h
    exact .unknown name
  | source s =>
    change some g = faultOf (s.verdict a.options.optimize) at h
    cases hv : s.verdict a.options.optimize <;> rw [hv] at h <;> cases h
    exact .refused hv
  | body p =>
    obtain ⟨error, placed, n, what, trace, _, rfl⟩ := h
    exact .crash p what trace

def Item.numbers : Item → List String
  | dependency _ => [Diagnostic.unresolvedReference]
  | usage _ => [Diagnostic.unresolvedNamespace]
  | source _ => [Diagnostic.syntaxError, Diagnostic.compileError]
  | body _ => [Diagnostic.runtimeError]

theorem locationOf_nonneg (sources : List Source) (trace : List Mark) :
    0 ≤ (locationOf sources trace).line ∧ 0 ≤ (locationOf sources trace).column := by
  unfold locationOf
  split
  · exact ⟨Int.le_refl 0, Int.le_refl 0⟩
  · exact ⟨Int.natCast_nonneg _, Int.natCast_nonneg _⟩

namespace Fault

variable {a : Assembly} {i : Item} {g : Diagnostic}

theorem isError (h : Fault a i g) : g.isError = true := by
  cases h with
  | unloadable d what => rfl
  | unknown name => rfl
  | refused h => exact Source.isError_of_verdict h
  | crash p what trace => rfl

theorem placed (h : Fault a i g) : 0 ≤ g.location.line ∧ 0 ≤ g.location.column := by
  cases h with
  | unloadable d what => exact ⟨Int.le_refl 0, Int.le_refl 0⟩
  | unknown name => exact ⟨Int.le_refl 0, Int.le_refl 0⟩
  | refused h => exact Source.nonneg_of_verdict h
  | crash p what trace => exact locationOf_nonneg a.sources trace

theorem numbered (h : Fault a i g) : g.id ∈ i.numbers := by
  cases h with
  | unloadable d what => exact List.mem_singleton.2 rfl
  | unknown name => exact List.mem_singleton.2 rfl
  | refused h =>
    obtain ⟨e, -, rfl⟩ | ⟨tree, misuse, -, -, rfl⟩ := Source.of_verdict_error h
    · cases e <;> exact List.mem_cons_self
    · exact List.mem_cons_of_mem _ (List.mem_singleton.2 rfl)
  | crash p what trace => exact List.mem_singleton.2 rfl

theorem id_ne (h : Fault a i g) : g.id ≠ Diagnostic.issuedWarning := by
  intro same
  have number := h.numbered
  rw [same] at number
  cases i <;> simp [Item.numbers, Diagnostic.unresolvedReference, Diagnostic.unresolvedNamespace,
    Diagnostic.syntaxError, Diagnostic.compileError, Diagnostic.runtimeError,
    Diagnostic.issuedWarning] at number

end Fault

def Trial.loaded? (t : Trial) : Option Nat :=
  match t.item with
  | .dependency d => (d.load.run t.start).1.toOption
  | _ => none

theorem of_run_reporting {α : Type} {code : Run α} {m n : Machine} {r : Except Nat α}
    (h : (reporting code).run m = (.ok r, n)) :
    (∃ a, r = .ok a ∧ code.run m = (.ok a, n)) ∨
    ∃ error placed o, r = .error error ∧ code.run m = (.error (.raised error placed), o) := by
  rw [reporting, run_tryCatch, map_eq_pure_bind, run_bind] at h
  rcases hc : code.run m with ⟨s | a, o⟩ <;> rw [hc] at h
  · cases s with
    | raised error placed =>
      obtain ⟨reported, _, _, h⟩ := of_run_bind h
      cases reported <;> cases h
      exact .inr ⟨error, placed, o, rfl, rfl⟩
    | exhausted => cases h
  · cases h
    exact .inl ⟨a, rfl, rfl⟩

section step

variable {a : Assembly} {module : Nat} {loaded : List Nat} {m n : Machine}

theorem of_run_bindOne {d : Dependency} {r : Except Diagnostic Nat}
    (h : (bindOne module d).run m = (.ok r, n)) :
    (∃ l o, r = .ok l ∧ d.load.run m = (.ok l, o)) ∨
    ∃ error placed o what, r = .error (unloadable d what) ∧
      d.load.run m = (.error (.raised error placed), o) := by
  obtain ⟨result, o, first, h⟩ := of_run_bind h
  obtain ⟨l, rfl, ran⟩ | ⟨error, placed, o', rfl, ran⟩ := of_run_reporting first
  · obtain ⟨_, _, _, h⟩ := of_run_bind h
    obtain ⟨_, _, _, h⟩ := of_run_bind h
    cases h
    exact .inl ⟨l, o, rfl, ran⟩
  · obtain ⟨what, _, _, h⟩ := of_run_bind h
    cases h
    exact .inr ⟨error, placed, o', what, rfl, ran⟩

theorem fits_of_run_bindOne {d : Dependency} {r : Except Diagnostic Nat}
    (h : (bindOne module d).run m = (.ok r, n)) :
    Trial.Fits a module loaded ⟨.dependency d, m, faultOf r⟩ := by
  obtain ⟨l, o, rfl, ran⟩ | ⟨error, placed, o, what, rfl, ran⟩ := of_run_bindOne h
  · exact ⟨l, o, ran⟩
  · exact ⟨error, placed, o, what, ran, rfl⟩

theorem loaded?_of_run_bindOne {d : Dependency} {r : Except Diagnostic Nat}
    (h : (bindOne module d).run m = (.ok r, n)) :
    Trial.loaded? ⟨.dependency d, m, faultOf r⟩ = r.toOption := by
  obtain ⟨l, o, rfl, ran⟩ | ⟨error, placed, o, what, rfl, ran⟩ := of_run_bindOne h <;>
    simp only [Trial.loaded?, ran] <;> rfl

theorem fits_of_run_useOne {name : String} {r : Except Diagnostic Unit}
    (h : (useOne module loaded name).run m = (.ok r, n)) :
    Trial.Fits a module loaded ⟨.usage name, m, faultOf r⟩ := by
  obtain ⟨found, o, first, h⟩ := of_run_bind h
  cases found with
  | none =>
    cases h
    exact ⟨⟨n, first⟩, rfl⟩
  | some found =>
    obtain ⟨_, _, _, h⟩ := of_run_bind h
    obtain ⟨_, _, _, h⟩ := of_run_bind h
    cases h
    exact ⟨found, o, first⟩

theorem of_run_checkOne {level : Int} {s : Source} {r : Except Diagnostic Program}
    (h : (checkOne level s).run m = (.ok r, n)) : r = s.verdict level := by
  obtain ⟨_, o, _, h⟩ := of_run_bind h
  unfold Source.verdict
  cases hr : s.reading with
  | error e =>
    rw [hr] at h
    cases h
    rfl
  | ok tree =>
    rw [hr] at h
    obtain ⟨made, _, first, h⟩ := of_run_bind h
    change r = (Program.made tree s.file level).mapError (Source.misuseOf s.path)
    rw [← Program.of_run_ofTree first]
    cases made <;> cases h <;> rfl

theorem fits_of_run_runOne {p : Program} {r : Except Diagnostic Unit}
    (h : (runOne a.sources module p).run m = (.ok r, n)) :
    Trial.Fits a module loaded ⟨.body p, m, faultOf r⟩ := by
  obtain ⟨result, o, first, h⟩ := of_run_bind h
  obtain ⟨_, rfl, ran⟩ | ⟨error, placed, o', rfl, ran⟩ := of_run_reporting first
  · cases h
    exact ⟨_, ran⟩
  · obtain ⟨trace, _, _, h⟩ := of_run_bind h
    obtain ⟨what, _, _, h⟩ := of_run_bind h
    cases h
    exact ⟨error, placed, o', what, trace, ran, rfl⟩

end step

/-- Items that were all gone through from a machine: what they brought, the machine that they left,
and the account. -/
inductive Gone {ι α : Type} (item : ι → Item) (step : ι → Run (Except Diagnostic α)) :
    List ι → Machine → List α → Machine → List Event → Prop
  | nil (m : Machine) : Gone item step [] m [] m []
  | fault {i : ι} {rest : List ι} {m n o : Machine} {d : Diagnostic} {as : List α}
      {es : List Event} (h : (step i).run m = (.ok (.error d), n))
      (later : Gone item step rest n.quiet as o es) :
      Gone item step (i :: rest) m as o (passage (item i) m n.issued (some d) ++ es)
  | well {i : ι} {rest : List ι} {m n o : Machine} {a : α} {as : List α} {es : List Event}
      (h : (step i).run m = (.ok (.ok a), n)) (later : Gone item step rest n.quiet as o es) :
      Gone item step (i :: rest) m (a :: as) o (passage (item i) m n.issued none ++ es)

theorem of_run_tell {α : Type} {i : Item} {step : Run (Except Diagnostic α)} {m n : Machine}
    {r : Except Diagnostic α} {es : List Event} (h : (tell i step).run m = (.ok r, n, es)) :
    ∃ o, step.run m = (.ok r, o) ∧ n = o.quiet ∧ es = passage i m o.issued (faultOf r) := by
  rcases hs : step.run m with ⟨s | r', o⟩ <;> simp only [tell, hs] at h
  · cases h
  · cases h
    exact ⟨o, rfl, rfl, rfl⟩

theorem run_tell {α : Type} {i : Item} {step : Run (Except Diagnostic α)} {m o : Machine}
    {r : Except Diagnostic α} (h : step.run m = (.ok r, o)) :
    (tell i step).run m = (.ok r, o.quiet, passage i m o.issued (faultOf r)) := by
  simp only [tell, h]

theorem Gone.of_run {ι α : Type} {item : ι → Item} {step : ι → Run (Except Diagnostic α)}
    {is : List ι} {m n : Machine} {as : List α} {es : List Event}
    (h : (tellEach item step is).run m = (.ok as, n, es)) : Gone item step is m as n es := by
  induction is generalizing m as es with
  | nil =>
    cases h
    exact .nil _
  | cons i rest ih =>
    obtain ⟨r, o, before, after, first, next, rfl⟩ := Told.of_run_bind h
    obtain ⟨o, ran, rfl, rfl⟩ := of_run_tell first
    cases r with
    | error d => exact .fault ran (ih next)
    | ok a =>
      obtain ⟨others, o', before, after, first, last, rfl⟩ := Told.of_run_bind next
      cases last
      rw [List.append_nil]
      exact .well ran (ih first)

namespace Gone

variable {ι α : Type} {item : ι → Item} {step : ι → Run (Except Diagnostic α)} {is : List ι}
  {m n : Machine} {as : List α} {es : List Event}

theorem run (h : Gone item step is m as n es) :
    (tellEach item step is).run m = (.ok as, n, es) := by
  induction h with
  | nil m => rfl
  | fault h later ih => rw [tellEach, Told.run_bind_ok (run_tell h), ih, faultOf]
  | well h later ih =>
    rw [tellEach, Told.run_bind_ok (run_tell h), Told.run_bind_ok ih, faultOf, Told.run_pure,
      List.append_nil]

theorem quiet (h : Gone item step is m as n es) (hm : m.quiet = m) : n.quiet = n := by
  induction h with
  | nil m => exact hm
  | fault h later ih | well h later ih => exact ih rfl

theorem items (h : Gone item step is m as n es) : (trials es).map Trial.item = is.map item := by
  induction h with
  | nil m => rfl
  | fault h later ih | well h later ih => simp [ih]

theorem begun (h : Gone item step is m as n es) : begun es = is.map item := by
  induction h with
  | nil m => rfl
  | fault h later ih | well h later ih => simp [ih]

theorem wordings (h : Gone item step is m as n es) : wordings es = [] := by
  induction h with
  | nil m => rfl
  | fault h later ih | well h later ih => simp [ih]

theorem fits {Q : Trial → Prop}
    (spec : ∀ i m r n, (step i).run m = (.ok r, n) → Q ⟨item i, m, faultOf r⟩)
    (h : Gone item step is m as n es) : ∀ t ∈ trials es, Q t := by
  induction h with
  | nil m => simp [trials]
  | fault h later ih | well h later ih =>
    rw [trials_passage_append, List.forall_mem_cons]
    exact ⟨spec _ _ _ _ h, ih⟩

theorem brought (value? : Trial → Option α)
    (spec : ∀ i m r n, (step i).run m = (.ok r, n) →
      value? ⟨item i, m, faultOf r⟩ = r.toOption)
    (h : Gone item step is m as n es) : as = (trials es).filterMap value? := by
  induction h with
  | nil m => rfl
  | @fault i rest m n o d as es h later ih =>
    have hv : value? ⟨item i, m, some d⟩ = none := spec i m (.error d) n h
    rw [trials_passage_append, List.filterMap_cons_none hv, ← ih]
  | @well i rest m n o a as es h later ih =>
    have hv : value? ⟨item i, m, none⟩ = some a := spec i m (.ok a) n h
    rw [trials_passage_append, List.filterMap_cons_some hv, ← ih]

end Gone

inductive Ran (step : Program → Run (Except Diagnostic Unit)) :
    List Program → Machine → Machine → List Event → Prop
  | nil (m : Machine) : Ran step [] m m []
  | fault {p : Program} {rest : List Program} {m n : Machine} {d : Diagnostic}
      (h : (step p).run m = (.ok (.error d), n)) :
      Ran step (p :: rest) m n.quiet (passage (.body p) m n.issued (some d))
  | well {p : Program} {rest : List Program} {m n o : Machine} {es : List Event}
      (h : (step p).run m = (.ok (.ok ()), n)) (later : Ran step rest n.quiet o es) :
      Ran step (p :: rest) m o (passage (.body p) m n.issued none ++ es)

namespace Ran

variable {step : Program → Run (Except Diagnostic Unit)} {ps : List Program} {m n : Machine}
  {es : List Event}

theorem quiet (h : Ran step ps m n es) (hm : m.quiet = m) : n.quiet = n := by
  induction h with
  | nil m => exact hm
  | fault h => rfl
  | well h later ih => exact ih rfl

theorem wordings (h : Ran step ps m n es) : wordings es = [] := by
  induction h with
  | nil m => rfl
  | fault h => simp
  | well h later ih => simp [ih]

theorem of_run (h : (tellBodies step ps).run m = (.ok (), n, es)) : Ran step ps m n es := by
  induction ps generalizing m es with
  | nil =>
    cases h
    exact .nil _
  | cons p rest ih =>
    obtain ⟨r, o, before, after, first, next, rfl⟩ := Told.of_run_bind h
    obtain ⟨o, ran, rfl, rfl⟩ := of_run_tell first
    cases r with
    | error d =>
      cases next
      rw [List.append_nil]
      exact .fault ran
    | ok _ => exact .well ran (ih next)

theorem run (h : Ran step ps m n es) : (tellBodies step ps).run m = (.ok (), n, es) := by
  induction h with
  | nil m => rfl
  | fault h => rw [tellBodies, Told.run_bind_ok (run_tell h), faultOf, Told.run_pure, List.append_nil]
  | well h later ih => rw [tellBodies, Told.run_bind_ok (run_tell h), ih, faultOf]

theorem fits {Q : Trial → Prop}
    (spec : ∀ p m r n, (step p).run m = (.ok r, n) → Q ⟨.body p, m, faultOf r⟩)
    (h : Ran step ps m n es) : ∀ t ∈ trials es, Q t := by
  induction h with
  | nil m => simp [trials]
  | fault h =>
    rw [trials_passage, List.forall_mem_singleton]
    exact spec _ _ _ _ h
  | well h later ih =>
    rw [trials_passage_append, List.forall_mem_cons]
    exact ⟨spec _ _ _ _ h, ih⟩

theorem ends (h : Ran step ps m n es) :
    ((trials es).map Trial.outcome = ps.map (fun p => (.body p, none)) ∧
      begun es = ps.map .body) ∨
    ∃ before p after d, ps = before ++ p :: after ∧
      (trials es).map Trial.outcome = before.map (fun p => (.body p, none)) ++ [(.body p, some d)] ∧
      begun es = (before ++ [p]).map .body := by
  induction h with
  | nil m => exact .inl ⟨rfl, rfl⟩
  | @fault p rest m n d h =>
    exact .inr ⟨[], p, rest, d, rfl, by simp [Trial.outcome], by simp⟩
  | @well p rest m n o es h later ih =>
    obtain ⟨ho, hb⟩ | ⟨before, q, after, d, rfl, ho, hb⟩ := ih
    · exact .inl ⟨by simp [ho, Trial.outcome], by simp [hb]⟩
    · exact .inr ⟨p :: before, q, after, d, rfl, by simp [ho, Trial.outcome], by simp [hb]⟩

end Ran

namespace Stage

variable {own : List String} {n : Machine} {es : List Event}

section gone

variable {ι α : Type} {item : ι → Item} {step : ι → Run (Except Diagnostic α)} {is : List ι}
  {m : Machine} {as : List α} (h : Stage own (Gone item step is m as) n es)

include h

theorem items : (trials es).map Trial.item = is.map item := by
  obtain ⟨_, before, gone, ht, -⟩ := h.gone
  rw [ht, gone.items]

theorem begun_eq : begun es = is.map item := by
  obtain ⟨_, before, gone, -, hb, -⟩ := h.gone
  rw [hb, gone.begun]

theorem fits {Q : Trial → Prop}
    (spec : ∀ i m r n, (step i).run m = (.ok r, n) → Q ⟨item i, m, faultOf r⟩) :
    ∀ t ∈ trials es, Q t := by
  obtain ⟨_, before, gone, ht, -⟩ := h.gone
  rw [ht]
  exact gone.fits spec

theorem brought (value? : Trial → Option α)
    (spec : ∀ i m r n, (step i).run m = (.ok r, n) →
      value? ⟨item i, m, faultOf r⟩ = r.toOption) : as = (trials es).filterMap value? := by
  obtain ⟨_, before, gone, ht, -⟩ := h.gone
  rw [ht]
  exact gone.brought value? spec

end gone

theorem quiet {P : Machine → List Event → Prop} (h : Stage own P n es)
    (before : ∀ o es, P o es → o.quiet = o) : n.quiet = n := by
  obtain ⟨o, es, after, gone, drained, rfl⟩ := h
  exact drained.quiet (before o es gone)

/-- Just the warnings about the unit are put into words in a stage, in the order in which they were
issued. -/
theorem warnings_eq {P : Machine → List Event → Prop} (h : Stage own P n es)
    (unworded : ∀ o before, P o before → wordings before = []) :
    (wordings es).map Wording.warning = (warnings es).filter (isOwn own) ∧
      ∀ t ∈ wordings es, ∃ text, t.text? = some text := by
  obtain ⟨o, before, after, gone, drained, rfl⟩ := h
  rw [wordings_append, unworded o before gone, List.nil_append, warnings_append]
  exact ⟨drained.warnings_eq, drained.texts⟩

end Stage

section stages

variable (a : Assembly) (module : Nat)

/-- The dependencies were gone through from a machine, and what they issued was drained. -/
def Loads (m : Machine) (loaded : List Nat) : Machine → List Event → Prop :=
  Stage (ownFiles a) (Gone .dependency (bindOne module) a.dependencies m loaded)

def Takes (loaded : List Nat) (m : Machine) (used : List Unit) : Machine → List Event → Prop :=
  Stage (ownFiles a) (Gone .usage (useOne module loaded) a.options.usings m used)

def Checks (m : Machine) (programs : List Program) : Machine → List Event → Prop :=
  Stage (ownFiles a) (Gone .source (checkOne a.options.optimize) a.sources m programs)

def Runs (programs : List Program) (m : Machine) : Machine → List Event → Prop :=
  Stage (ownFiles a) (Ran (runOne a.sources module) programs m)

variable {a module} {m n : Machine} {loaded : List Nat} {used : List Unit} {programs : List Program}
  {es : List Event}

theorem run_tellLoading :
    (tellLoading a module).run m = (.ok loaded, n, es) ↔ Loads a module m loaded n es :=
  ⟨Stage.of_run fun _ _ => Gone.of_run, Stage.run fun _ _ => Gone.run⟩

theorem run_tellTaking : (tellTaking a module loaded).run m = (.ok used, n, es) ↔
    Takes a module loaded m used n es :=
  ⟨Stage.of_run fun _ _ => Gone.of_run, Stage.run fun _ _ => Gone.run⟩

theorem run_tellChecking :
    (tellChecking a).run m = (.ok programs, n, es) ↔ Checks a m programs n es :=
  ⟨Stage.of_run fun _ _ => Gone.of_run, Stage.run fun _ _ => Gone.run⟩

theorem Loads.quiet (h : Loads a module m loaded n es) (hm : m.quiet = m) : n.quiet = n :=
  Stage.quiet h fun _ _ gone => gone.quiet hm

theorem Takes.quiet (h : Takes a module loaded m used n es) (hm : m.quiet = m) : n.quiet = n :=
  Stage.quiet h fun _ _ gone => gone.quiet hm

theorem Checks.quiet (h : Checks a m programs n es) (hm : m.quiet = m) : n.quiet = n :=
  Stage.quiet h fun _ _ gone => gone.quiet hm

theorem of_run_tellRunning (h : (tellRunning a module programs).run m = (.ok (), n, es)) :
    Runs a module programs m n es :=
  Stage.of_run (fun _ _ => Ran.of_run) h

end stages

theorem fault_of_fits {a : Assembly} {module : Nat} {loaded : List Nat} {es : List Event}
    (h : ∀ t ∈ trials es, t.Fits a module loaded) : ∀ d ∈ faults es, ∃ i, Fault a i d := by
  intro d hd
  rw [faults_eq] at hd
  obtain ⟨t, ht, hf⟩ := List.mem_filterMap.1 hd
  exact ⟨t.item, (h t ht).fault hf⟩

theorem isError_of_fits {a : Assembly} {module : Nat} {loaded : List Nat} {es : List Event}
    (h : ∀ t ∈ trials es, t.Fits a module loaded) : ∀ d ∈ faults es, d.isError = true := by
  intro d hd
  obtain ⟨i, fault⟩ := fault_of_fits h d hd
  exact fault.isError

theorem fits_of_gone {a : Assembly} {module : Nat} {m m₁ m₂ m₃ : Machine} {loaded : List Nat}
    {used : List Unit} {programs : List Program} {loading taking checking : List Event}
    (hl : Loads a module m loaded m₁ loading) (ht : Takes a module loaded m₁ used m₂ taking)
    (hc : Checks a m₂ programs m₃ checking) :
    ∀ t ∈ trials (loading ++ taking ++ checking), t.Fits a module loaded := by
  have fl := hl.fits (Q := Trial.Fits a module loaded) fun d m r n h => fits_of_run_bindOne h
  have ft := ht.fits (Q := Trial.Fits a module loaded) fun name m r n h => fits_of_run_useOne h
  have fc := hc.fits (Q := Trial.Fits a module loaded) fun s m r n h => by
    rw [of_run_checkOne h]
    rfl
  rw [trials_append, trials_append, List.forall_mem_append, List.forall_mem_append]
  exact ⟨⟨fl, ft⟩, fc⟩

def Course.loaded (c : Course) : List Nat := (trials c.loading).filterMap Trial.loaded?

/-- A course that the stages took from a machine. Without a fault before, the programs of the sources
were run; else nothing was. -/
inductive Carried (a : Assembly) (module : Nat) (m : Machine) : Course → Prop
  | held {m₁ m₂ m₃ : Machine} {loaded : List Nat} {used : List Unit} {programs : List Program}
      {loading taking checking : List Event}
      (hl : Loads a module m loaded m₁ loading) (ht : Takes a module loaded m₁ used m₂ taking)
      (hc : Checks a m₂ programs m₃ checking)
      (faulty : faults (loading ++ taking ++ checking) ≠ []) :
      Carried a module m { left := m₃, loading, taking, checking }
  | ran {m₁ m₂ m₃ m₄ : Machine} {loaded : List Nat} {used : List Unit} {programs : List Program}
      {loading taking checking running : List Event}
      (hl : Loads a module m loaded m₁ loading) (ht : Takes a module loaded m₁ used m₂ taking)
      (hc : Checks a m₂ programs m₃ checking)
      (well : faults (loading ++ taking ++ checking) = [])
      (hr : Runs a module programs m₃ m₄ running) :
      Carried a module m { left := m₄, loading, taking, checking, running }

namespace Carried

variable {a : Assembly} {module : Nat} {m : Machine} {c : Course}

/-- Before the gate everything was gone through; after it the programs were run, or nothing was. -/
theorem gone (h : Carried a module m c) :
    ∃ m₁ m₂ m₃ loaded used programs,
      Loads a module m loaded m₁ c.loading ∧ Takes a module loaded m₁ used m₂ c.taking ∧
      Checks a m₂ programs m₃ c.checking ∧
      (faults (c.loading ++ c.taking ++ c.checking) ≠ [] ∧ c.running = [] ∨
        faults (c.loading ++ c.taking ++ c.checking) = [] ∧
          Runs a module programs m₃ c.left c.running) := by
  cases h with
  | held hl ht hc faulty => exact ⟨_, _, _, _, _, _, hl, ht, hc, .inl ⟨faulty, rfl⟩⟩
  | ran hl ht hc well hr => exact ⟨_, _, _, _, _, _, hl, ht, hc, .inr ⟨well, hr⟩⟩

theorem fits (h : Carried a module m c) : ∀ t ∈ trials c.events, t.Fits a module c.loaded := by
  obtain ⟨_, _, _, loaded, _, _, hl, ht, hc, running⟩ := h.gone
  have loaded_eq : loaded = c.loaded :=
    hl.brought Trial.loaded? fun d m r n h => loaded?_of_run_bindOne h
  rw [loaded_eq] at hl ht
  have before := fits_of_gone hl ht hc
  have after : ∀ t ∈ trials c.running, t.Fits a module c.loaded := by
    obtain ⟨-, silent⟩ | ⟨-, hr⟩ := running
    · rw [silent]
      simp [trials]
    · obtain ⟨_, before, ran, trials, -⟩ := hr.gone
      rw [trials]
      exact ran.fits fun p m r n h => fits_of_run_runOne h
  rw [Course.events_eq, trials_append, List.forall_mem_append]
  exact ⟨before, after⟩

theorem quiet (h : Carried a module m c) (hm : m.quiet = m) : c.left.quiet = c.left := by
  cases h with
  | held hl ht hc faulty => exact Checks.quiet hc (Takes.quiet ht (Loads.quiet hl hm))
  | ran hl ht hc well hr =>
    exact Stage.quiet hr fun _ _ ran => ran.quiet (Checks.quiet hc (Takes.quiet ht (Loads.quiet hl hm)))

theorem isError (h : Carried a module m c) : ∀ d ∈ faults c.events, d.isError = true :=
  isError_of_fits h.fits

theorem warnings_eq (h : Carried a module m c) : ∀ es ∈ c.stages,
    (wordings es).map Wording.warning = (warnings es).filter (isOwn (ownFiles a)) ∧
      ∀ t ∈ wordings es, ∃ text, t.text? = some text := by
  obtain ⟨_, _, _, _, _, _, hl, ht, hc, running⟩ := h.gone
  simp only [Course.stages, List.forall_mem_cons, List.not_mem_nil, false_imp_iff, implies_true,
    and_true]
  refine ⟨hl.warnings_eq fun _ _ => Gone.wordings, ht.warnings_eq fun _ _ => Gone.wordings,
    hc.warnings_eq fun _ _ => Gone.wordings, ?_⟩
  obtain ⟨-, silent⟩ | ⟨-, hr⟩ := running
  · rw [silent]
    exact ⟨rfl, by simp [wordings]⟩
  · exact hr.warnings_eq fun _ _ => Ran.wordings

end Carried

end Emission

end Stencil
