import Stencil.Proofs.Emission.Globals
import Stencil.Proofs.Emission.Running

/-!
The identity of a module: the name that it gives itself, and the file that it says it is from. A body
finds both as they were given, unless a dependency was bound under one of these names or a namespace has
brought something under it (`Prepared.stands_opened`). As long as the name is another one, what a body
keeps for being the main program is passed over (`run_goThrough_mainTest`).
-/

namespace Stencil

open Script Run

namespace Emission

section opening

variable {m n : Machine} {module : Nat} {name : String} {v w : Option Value}

theorem Stands.unique (h : Stands m module name v) (h' : Stands m module name w) : v = w := by
  obtain ⟨attrs, found, rfl⟩ := h
  obtain ⟨attrs', found', rfl⟩ := h'
  cases Option.some.inj (found.symm.trans found')
  rfl

theorem Stands.run_new (h : Stands m module name v) (o : Object) :
    ∃ w n, (new o).run m = (.ok w, n) ∧ Stands n module name v := by
  obtain ⟨attrs, found, value⟩ := h
  have there : module < m.heap.size := (Array.getElem?_eq_some_iff.1 found).1
  refine ⟨_, _, rfl, attrs, ?_, value⟩
  change (m.heap.push o)[module]? = _
  rw [Array.getElem?_push_lt there, ← found, Array.getElem?_eq_getElem there]

theorem Stands.run_put (h : Stands m module name v) {key : String} (other : key ≠ name) (w : Value) :
    ∃ n, (putAttribute module key w).run m = (.ok (), n) ∧ Stands n module name v := by
  obtain ⟨attrs, found, -⟩ := id h
  obtain ⟨n, put, -⟩ := run_putAttribute_module found key w
  refine ⟨n, put, ?_⟩
  have written := h.after_put put
  rwa [if_neg other] at written

theorem Stands.run_furnish (h : Stands m module name v) (other : "__builtins__" ≠ name) :
    ∃ n, (Program.furnish module).run m = (.ok (), n) ∧ Stands n module name v := by
  unfold Program.furnish
  rw [run_bind, run_get]
  dsimp only
  split
  · rw [run_bind, run_get]
    dsimp only
    split
    · next ref _ =>
      obtain ⟨w, o, made, kept⟩ := h.run_new (.attributesOf ref)
      obtain ⟨n, put, stands⟩ := kept.run_put other w
      refine ⟨n, ?_, stands⟩
      rw [run_bind, made]
      exact put
    · exact ⟨m, rfl, h⟩
  · exact ⟨m, rfl, h⟩

end opening

end Emission

namespace Script.Program

def frame (p : Program) (module : Nat) : Frame :=
  { file := p.file, kind := .module, globals := module, space := module }

def enter (p : Program) (module : Nat) : Run Unit := do
  furnish module
  match Stmt.doc? p.body with
  | some s => (p.frame module).store "__doc__" (.text s)
  | none => pure ()

def goThrough (p : Program) (module : Nat) : Run Unit :=
  leavingCall do
    let _ ← within ⟨p.file, 1, 0⟩ (Execution.execBody Interpreter.top (p.frame module) p.body)

theorem run_eq_enter (p : Program) (module : Nat) :
    p.run module = p.enter module >>= fun _ => p.goThrough module := by
  rw [run_eq, enter, bind_assoc]
  refine bind_congr fun _ => ?_
  unfold perform Interpreter.runBody
  dsimp only
  cases Stmt.doc? p.body <;> rfl

end Script.Program

namespace Emission

section identity

variable {a : Assembly} {b : Builder} {m n : Machine} {module : Nat} {name : String}
  {v : Option Value}

theorem Stands.run_enter (h : Stands m module name v) (builtins : "__builtins__" ≠ name)
    (doc : "__doc__" ≠ name) (p : Program) :
    ∃ n, (p.enter module).run m = (.ok (), n) ∧ Stands n module name v := by
  obtain ⟨o, furnished, stands⟩ := h.run_furnish builtins
  unfold Program.enter
  rw [run_bind, furnished]
  dsimp only
  split
  · next s _ => exact stands.run_put doc (.text s)
  · exact ⟨o, rfl, stands⟩

theorem Trial.apart_of_keeps {t : Trial} {loaded : List Nat} (h : t.start.keeps (t.asked loaded) = true)
    (module : Nat) (name : String) : t.Apart module loaded name := by
  rintro v ⟨attrs, found, value⟩
  exact ⟨attrs, (Intact.of_keeps h).attributes module attrs found, value⟩

structure Identified (m : Machine) (module : Nat) (name file : String) : Prop where
  name : Stands m module "__name__" (some (.text name))
  file : Stands m module "__file__" (some (.text file))

/-- Dependencies and namespaces bring nothing under a name but a text that stands there anyway. -/
def Leaves (a : Assembly) (b : Builder) (m : Machine) (name text : String) : Prop :=
  ∀ v, brought? a b m name = some v → v = .text text

theorem Prepared.stands_opened (prepared : Prepared a b m) {attrs : Bindings Value}
    (found : m.heap[b.module]? = some (.module attrs))
    (apart : ∀ t ∈ trials ((course a b m).loading ++ (course a b m).taking),
      t.Apart b.module (course a b m).loaded name)
    (words : ∀ t ∈ wordings ((course a b m).loading ++ (course a b m).taking),
      t.Apart b.module name)
    (builtins : "__builtins__" ≠ name) (doc : "__doc__" ≠ name) {text : String}
    (own : (labelled a attrs).get? name = some (.text text)) (p : Program) :
    ((p.enter b.module).run (ready a b m)).1 = .ok () ∧
      (Stands ((p.enter b.module).run (ready a b m)).2 b.module name (some (.text text)) ↔
        Leaves a b m name text) := by
  obtain ⟨n, entered, stands⟩ := (prepared.stands found apart words).run_enter builtins doc p
  rw [entered]
  refine ⟨rfl, fun h => ?_, fun h => ?_⟩
  · intro v there
    have same := stands.unique h
    rw [there] at same
    exact Option.some.inj same
  · rw [own] at stands
    rcases there : brought? a b m name with _ | v
    · rwa [there] at stands
    · rw [there, h v there] at stands
      exact stands

theorem prepared_of_running (ran : (course a b m).running ≠ []) : Prepared a b m := by
  rcases hl : (tellLoading a b.module).run (start a b m) with ⟨_ | loaded, m₁, loading⟩
  · exact absurd (by simp only [course, courseOf, hl]) ran
  rcases ht : (tellTaking a b.module loaded).run m₁ with ⟨_ | used, m₂, taking⟩
  · exact absurd (by simp only [course, courseOf, hl, ht]) ran
  rcases hc : (tellChecking a).run m₂ with ⟨_ | programs, m₃, checking⟩
  · exact absurd (by simp only [course, courseOf, hl, ht, hc]) ran
  have linked_eq : linked a b m = m₁ := by rw [linked, hl]
  have taken : (tellTaking a b.module (course a b m).loaded).run (linked a b m) =
      (.ok used, m₂, taking) := by rw [linked_eq, course_loaded hl, ht]
  have entered_eq : entered a b m = m₂ := by rw [entered, taken]
  exact ⟨⟨loaded, by rw [hl]⟩, ⟨used, by rw [taken]⟩, programs, by rw [entered_eq, hc]⟩

theorem Gone.of_singleton {ι α : Type} {item : ι → Item} {step : ι → Run (Except Diagnostic α)} {i : ι}
    {as : List α} {es : List Event} (h : Gone item step [i] m as n es) : as = [] ∨ ∃ x, as = [x] := by
  cases h with
  | fault _ later =>
    cases later
    exact .inl rfl
  | well _ later =>
    cases later
    exact .inr ⟨_, rfl⟩

/-- How the code of a unit begins: the one program that is run, and what its first statement finds. -/
structure Begins (a : Assembly) (b : Builder) (m : Machine) (p : Program) (n : Machine) : Prop where
  runs : (course a b m).running = ((tellRunning a b.module [p]).run (ready a b m)).2.2
  enters : (p.enter b.module).run (ready a b m) = (.ok (), n)
  goes : (p.run b.module).run (ready a b m) = (p.goThrough b.module).run n

theorem begins_of_running {s : Source} {attrs : Bindings Value}
    (found : m.heap[b.module]? = some (.module attrs)) (sources : a.sources = [s])
    (apart : ∀ t ∈ trials ((course a b m).loading ++ (course a b m).taking),
      t.Apart b.module (course a b m).loaded "__name__")
    (words : ∀ t ∈ wordings ((course a b m).loading ++ (course a b m).taking),
      t.Apart b.module "__name__")
    (ran : (course a b m).running ≠ []) : ∃ p n, Begins a b m p n := by
  have prepared := prepared_of_running ran
  obtain ⟨used, programs, staged, running⟩ := prepared.staged
  have runs := running.resolve_left ran
  obtain ⟨before, checks, -, -⟩ := staged.checks.drained staged.quiet
  rw [sources] at checks
  obtain rfl | ⟨p, rfl⟩ := checks.of_singleton
  · exact absurd runs ran
  obtain ⟨n, entered, -⟩ := (prepared.stands found apart words).run_enter (by decide) (by decide) p
  refine ⟨p, n, runs, entered, ?_⟩
  rw [Program.run_eq_enter, run_bind, entered]

end identity

end Emission

/-! What evaluation and execution come to for what is asked of a main program. -/

namespace Script.Evaluation

variable (d : Deeper) (f : Frame) (pos : Pos)

theorem eval_literal (l : Literal) : eval d f (.literal pos l) = pure (.ofLiteral l) := rfl

theorem eval_name (id : String) : eval d f (.name pos id) = f.holding pos (f.load id) := rfl

theorem eval_compare (e : Expr) (op : CompareOp) (other : Expr) :
    eval d f (.compare pos e [.comparison op other]) = eval d f e >>= fun v =>
      eval d f other >>= fun w => f.holding pos (compare d op v w) >>= pure := rfl

end Script.Evaluation

namespace Script.Execution

variable (d : Deeper) (f : Frame)

theorem exec_branch (pos : Pos) (test : Expr) (yes no : List Stmt) :
    exec d f (.branch pos test yes no) = Evaluation.eval d f test >>= fun v =>
      f.holding test.pos (truth d v) >>= fun holds =>
        if holds then execBody d f yes else execBody d f no := rfl

end Script.Execution

namespace Emission

def mainTest (pos name literal : Pos) : Expr :=
  .compare pos (.name name "__name__") [.comparison .eq (.literal literal (.text "__main__"))]

section guards

variable {m : Machine} {f : Frame} {α : Type}

theorem run_holding {step : Run α} {x : α} (p : Pos) (calls : List Mark)
    (h : ∀ calls, step.run { m with calls } = (.ok x, { m with calls })) :
    ∃ calls', (f.holding p step).run { m with calls } = (.ok x, { m with calls := calls' }) := by
  refine ⟨f.mark p :: calls.tail, ?_⟩
  have stood : (standAt (f.mark p)).run { m with calls } =
      (.ok (), { m with calls := f.mark p :: calls.tail }) := by
    rw [standAt, run_update]
    simp [Machine.resume, Machine.quiet]
  rw [Frame.holding, run_bind, stood]
  dsimp only
  rw [placing, run_tryCatch, h]

theorem run_load_global {s : String} (module : f.kind = .module)
    (stands : Stands m f.globals "__name__" (some (.text s))) (calls : List Mark) :
    (f.load "__name__").run { m with calls } = (.ok (.text s), { m with calls }) := by
  obtain ⟨attrs, found, value⟩ := stands
  have there : ({ m with calls } : Machine).heap[f.globals]? = some (.module attrs) := found
  rw [Frame.load, module]
  dsimp only
  rw [Frame.loadGlobal, run_bind, Frame.kept, run_bind, run_object_of there]
  dsimp only
  rw [value]
  rfl

theorem run_equal_text (d : Deeper) (s t : String) (m : Machine) :
    (equal d (.text s) (.text t)).run m = (.ok (.bool (s == t)), m) := rfl

theorem run_eval_mainTest {s : String} (module : f.kind = .module)
    (stands : Stands m f.globals "__name__" (some (.text s))) (d : Deeper) (pos name literal : Pos) :
    ∃ calls, (Evaluation.eval d f (mainTest pos name literal)).run m =
      (.ok (.bool (s == "__main__")), { m with calls }) := by
  obtain ⟨calls, loaded⟩ := run_holding (f := f) name m.calls (run_load_global module stands)
  obtain ⟨calls', compared⟩ := run_holding (f := f) pos calls fun calls =>
    run_equal_text d s "__main__" { m with calls }
  refine ⟨calls', ?_⟩
  rw [mainTest, Evaluation.eval_compare, run_bind, Evaluation.eval_name, loaded]
  dsimp only
  rw [Evaluation.eval_literal, pure_bind, bind_pure]
  exact compared

theorem run_within_congr {code code' : Run α} {mark : Mark}
    (h : code.run { m with calls := mark :: m.calls } = code'.run { m with calls := mark :: m.calls }) :
    (within mark code).run m = (within mark code').run m := by
  have entered : (update fun m => { m with calls := mark :: m.calls }).run m =
      (.ok (), { m with calls := mark :: m.calls }) := by
    rw [run_update]
    simp [Machine.resume, Machine.quiet]
  have attempted : (tryCatch (Except.ok <$> code) fun stop => pure (Except.error stop)).run
        { m with calls := mark :: m.calls } =
      (tryCatch (Except.ok <$> code') fun stop => pure (.error stop)).run
        { m with calls := mark :: m.calls } := by
    rw [run_tryCatch, run_tryCatch, map_eq_pure_bind, map_eq_pure_bind, run_bind, run_bind, h]
  rw [within, within, run_bind, run_bind, entered]
  dsimp only
  rw [run_bind, run_bind, attempted]

theorem exec_mainTest {s : String} (module : f.kind = .module)
    (stands : Stands m f.globals "__name__" (some (.text s))) (other : s ≠ "__main__") (d : Deeper)
    (at_ pos name literal : Pos) :
    ∃ calls, ∀ yes no, (Execution.exec d f (.branch at_ (mainTest pos name literal) yes no)).run m =
      (Execution.execBody d f no).run { m with calls } := by
  obtain ⟨calls, tested⟩ := run_eval_mainTest module stands d pos name literal
  have judge (calls : List Mark) : (truth d (.bool (s == "__main__"))).run { m with calls } =
      (.ok (s == "__main__"), { m with calls }) := rfl
  obtain ⟨calls', judged⟩ := run_holding (f := f) (mainTest pos name literal).pos calls judge
  refine ⟨calls', fun yes no => ?_⟩
  rw [Execution.exec_branch, run_bind, tested]
  dsimp only
  rw [run_bind, judged]
  dsimp only
  rw [beq_eq_false_iff_ne.2 other]
  rfl

/-- What a branch for a main program holds makes no difference to a body, if the module has another
name when the body comes to it. -/
theorem execBody_mainTest {s : String} (module : f.kind = .module) (other : s ≠ "__main__")
    {d : Deeper} (pre rest yes yes' no : List Stmt) (at_ pos name literal : Pos)
    (stands : ∀ n, (Execution.execBody d f pre).run m = (.ok .next, n) →
      Stands n f.globals "__name__" (some (.text s))) :
    (Execution.execBody d f (pre ++ .branch at_ (mainTest pos name literal) yes no :: rest)).run m =
      (Execution.execBody d f
        (pre ++ .branch at_ (mainTest pos name literal) yes' no :: rest)).run m := by
  induction pre generalizing m with
  | nil =>
    obtain ⟨calls, passed⟩ := exec_mainTest module (stands m rfl) other d at_ pos name literal
    rw [List.nil_append, List.nil_append, Execution.execBody, Execution.execBody, run_bind, run_bind,
      passed, passed]
  | cons first pre ih =>
    rw [List.cons_append, List.cons_append, Execution.execBody, Execution.execBody, run_bind, run_bind]
    rcases ran : (Execution.exec d f first).run m with ⟨stop | flow, n⟩
    · rfl
    · cases flow with
      | next =>
        refine ih fun o done => stands o ?_
        rw [Execution.execBody, run_bind, ran]
        exact done
      | _ => rfl

/-- What a branch for a main program holds makes no difference to a program, if its module has another
name when the program comes to it. -/
theorem run_goThrough_mainTest {p : Program} {module : Nat} {s : String} (other : s ≠ "__main__")
    {pre rest yes no : List Stmt} {at_ pos name literal : Pos}
    (body : p.body = pre ++ .branch at_ (mainTest pos name literal) yes no :: rest)
    (stands : ∀ n, (Execution.execBody Interpreter.top (p.frame module) pre).run
      { m with calls := ⟨p.file, 1, 0⟩ :: m.calls } = (.ok .next, n) →
        Stands n module "__name__" (some (.text s))) (yes' : List Stmt) :
    (p.goThrough module).run m =
      (Program.goThrough ⟨p.file, pre ++ .branch at_ (mainTest pos name literal) yes' no :: rest⟩
        module).run m := by
  have same := execBody_mainTest (f := p.frame module) rfl other pre rest yes yes' no at_ pos name
    literal stands
  rw [← body] at same
  rw [Program.goThrough, Program.goThrough, leavingCall, leavingCall, run_tryCatch, run_tryCatch,
    run_bind, run_bind, run_within_congr same]
  rfl

end guards

end Emission

end Stencil
