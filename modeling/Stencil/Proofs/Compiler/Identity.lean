import Stencil.Proofs.Compiler.Restraint
import Stencil.Proofs.Emission.Identity

/-!
What a compiled source finds of itself. It is run in a module that has the compiler's namespace for its
name and the scratch file for its file, and both stand at the first statement unless references or
namespaces have brought something else under them (`compile_identifies`).
-/

namespace Stencil

open Script

namespace Builder

theorem of_run_make {name space : String} {access : ModuleAccess} {m n : Machine} {b : Builder}
    (h : (make name space access).run m = (.ok b, n)) :
    ∃ attrs, n.heap[b.module]? = some (.module attrs) ∧ attrs.get? "__name__" = some (.text space) := by
  cases h
  refine ⟨.ofList [("__name__", .text space), ("__doc__", .none), ("__package__", .none),
    ("__loader__", .none), ("__spec__", .none)], ?_, rfl⟩
  cases access <;> exact Array.getElem?_push_size

end Builder

namespace Compiler

variable {α : Type} {c : Compiler} {context : Context} {path : String} {a : Assembly} {b : Builder}
  {v w : Workshop}

theorem machine_onMachine (code : Run α) (w : Workshop) :
    ((onMachine code).run.run w).2.machine = (code.run w.machine).2 := by
  rw [run_onMachine_eq]

/-- What the backend is given for a context: its source, to be carried out as a library in a module that
was just defined for it. -/
structure Given (c : Compiler) (context : Context) (path : String) (a : Assembly) (b : Builder)
    (m : Machine) : Prop where
  defined : ∃ before, (c.define (c.moduleName context)).run before = (.ok b, m)
  library : a.options.kind = .library
  source : ∃ id, a.sources = [⟨id, context.source, path⟩]

theorem given_of_prepare {ds : List Dependency}
    (h : (c.prepare context path ds).run.run w = (.ok (a, b), v)) :
    c.Given context path a b v.machine := by
  obtain ⟨_, _, _, h⟩ := of_run_bind h
  obtain ⟨u, _, _, h⟩ := of_run_bind h
  obtain ⟨b, _, defined, h⟩ := of_run_bind h
  obtain ⟨m, made, rfl⟩ := of_run_onMachine defined
  obtain ⟨_, _, noted, h⟩ := of_run_bind h
  cases noted
  cases h
  exact ⟨⟨_, made⟩, rfl, _, rfl⟩

theorem of_run_toUnit (h : (c.toUnit context).run.run w = (.ok (a, b), v)) :
    c.Given context (c.sourceFile context (c.newFolder w)) a b v.machine ∧
      ((c.toEmission context).run.run w).2.machine = ((c.backend.emit a b).run v.machine).2 := by
  obtain ⟨folder, w₁, made, later⟩ := of_run_bind h
  obtain ⟨path, w₂, stored, later'⟩ := of_run_bind later
  obtain ⟨ds, w₃, resolved, prepared⟩ := of_run_bind later'
  obtain rfl : folder = c.newFolder w := by
    obtain ⟨_, ran⟩ | ⟨_, -, ran⟩ := run_makeFolder_cases c w <;> rw [ran] at made <;> cases made
    rfl
  obtain rfl : path = c.sourceFile context (c.newFolder w) := by
    obtain ⟨_, -, ran⟩ | ⟨_, _, -, ran, -⟩ := run_store_cases c context (c.newFolder w) w₁ <;>
      rw [ran] at stored <;> cases stored
    rfl
  refine ⟨given_of_prepare prepared, ?_⟩
  have emitted := machine_onMachine (c.backend.emit a b) v
  rw [toEmission, run_bind, made]
  dsimp only
  rw [run_bind, stored]
  dsimp only
  rw [run_bind, resolved]
  dsimp only
  rw [run_bind, emitInto_eq, run_bind, prepared]
  dsimp only
  rw [run_bind]
  rcases hc : (onMachine (c.backend.emit a b)).run.run v with ⟨failure | e, x⟩ <;>
    rw [hc] at emitted <;> exact emitted

/-- Every module that a source is emitted into has the namespace of the compiler for its name. -/
def Names (c : Compiler) : Prop :=
  ∀ name, ∃ label access, c.define name = Builder.make label c.space access

theorem Given.labelled {m : Machine} (given : c.Given context path a b m) (names : c.Names) :
    ∃ attrs, m.heap[b.module]? = some (.module attrs) ∧
      (Emission.labelled a attrs).get? "__name__" = some (.text c.space) ∧
      (Emission.labelled a attrs).get? "__file__" = some (.text path) := by
  obtain ⟨⟨before, defined⟩, library, id, source⟩ := given
  obtain ⟨label, access, define⟩ := names (c.moduleName context)
  rw [define] at defined
  obtain ⟨attrs, found, own⟩ := Builder.of_run_make defined
  refine ⟨attrs, found, ?_, ?_⟩ <;> rw [Emission.labelled, library, source]
  · simpa using own
  · simp

structure Identity (c : Compiler) (context : Context) (w : Workshop) (a : Assembly) (b : Builder)
    (m : Machine) : Prop where
  emits : ((c.toEmission context).run.run (c.enter context w).1).2.machine =
    ((Emission.emit a b).run m).2
  /-- At the first statement the module has the name and the file that it was given exactly if nothing
  else was brought under them. -/
  begins : (Emission.course a b m).running ≠ [] → ∃ p n, Emission.Begins a b m p n ∧
    (Emission.Identified n b.module c.space (c.sourceFile context (c.newFolder w)) ↔
      Emission.Leaves a b m "__name__" c.space ∧
        Emission.Leaves a b m "__file__" (c.sourceFile context (c.newFolder w)))
  /-- As long as the name stands, it makes no difference what is kept for a main program. -/
  passes : c.space ≠ "__main__" → ∀ (p : Program) n pre rest yes no at_ pos name literal,
    p.body = pre ++ .branch at_ (Emission.mainTest pos name literal) yes no :: rest →
    (∀ o, (Execution.execBody Interpreter.top (p.frame b.module) pre).run
        { n with calls := ⟨p.file, 1, 0⟩ :: n.calls } = (.ok .next, o) →
      Emission.Stands o b.module "__name__" (some (.text c.space))) →
    ∀ yes', (p.goThrough b.module).run n =
      (Program.goThrough
        ⟨p.file, pre ++ .branch at_ (Emission.mainTest pos name literal) yes' no :: rest⟩ b.module).run n

theorem compile_identifies (standard : c.backend.emit = Emission.emit) (names : c.Names)
    (begun : (c.toUnit context).run.run (c.enter context w).1 = (.ok (a, b), v))
    (apart : ∀ name ∈ ["__name__", "__file__"], ∀ t ∈ Emission.trials
      ((Emission.course a b v.machine).loading ++ (Emission.course a b v.machine).taking),
      t.Apart b.module (Emission.course a b v.machine).loaded name)
    (words : ∀ name ∈ ["__name__", "__file__"], ∀ t ∈ Emission.wordings
      ((Emission.course a b v.machine).loading ++ (Emission.course a b v.machine).taking),
      t.Apart b.module name) :
    c.Identity context w a b v.machine := by
  obtain ⟨given, emits⟩ := of_run_toUnit begun
  rw [standard] at emits
  rw [newFolder_enter] at given
  obtain ⟨attrs, found, name, file⟩ := given.labelled names
  obtain ⟨id, source⟩ := given.source
  refine ⟨emits, fun ran => ?_, fun other p n pre rest yes no at_ pos name literal body stands =>
    Emission.run_goThrough_mainTest other body stands⟩
  obtain ⟨p, n, begins⟩ := Emission.begins_of_running found source (apart _ (by simp)) (words _ (by simp)) ran
  have prepared := Emission.prepared_of_running ran
  have named := (prepared.stands_opened found (apart _ (by simp)) (words _ (by simp)) (by decide)
    (by decide) name p).2
  have filed := (prepared.stands_opened found (apart _ (by simp)) (words _ (by simp)) (by decide)
    (by decide) file p).2
  rw [begins.enters] at named filed
  exact ⟨p, n, begins, fun h => ⟨named.1 h.name, filed.1 h.file⟩,
    fun h => ⟨named.2 h.1, filed.2 h.2⟩⟩

theorem names_standard : ({} : Compiler).Names := fun name => ⟨name, .runAndCollect, rfl⟩

def usingLib : Context :=
  { source := "class T: pass\n", className := "T", namespaces := ["lib"], references := [.module 0] }

def withLib : Workshop :=
  { machine :=
      { heap := #[.module (.ofList [("__name__", .text "lib"), ("x", .int 1)])]
        files := { folders := [["tmp"]] } } }

/-- A namespace that brings nothing but an `x`. -/
theorem compile_identifies_using :
    let c : Compiler := {}
    ∃ a b v, (c.toUnit usingLib).run.run (c.enter usingLib withLib).1 = (.ok (a, b), v) ∧
      c.Identity usingLib withLib a b v.machine ∧ (Emission.course a b v.machine).running ≠ [] ∧
      Emission.Leaves a b v.machine "__name__" c.space ∧
      Emission.Leaves a b v.machine "__file__" (c.sourceFile usingLib (c.newFolder withLib)) := by
  intro c
  let r := (c.toUnit usingLib).run.run (c.enter usingLib withLib).1
  have seen : r.1.toOption.map (fun u =>
      let course := Emission.course u.1 u.2 r.2.machine
      ((Emission.trials (course.loading ++ course.taking)).all (fun t =>
          t.start.keeps (t.asked course.loaded)),
        (Emission.wordings (course.loading ++ course.taking)).isEmpty, course.running.isEmpty,
        (Emission.brought? u.1 u.2 r.2.machine "__name__").isSome,
        (Emission.brought? u.1 u.2 r.2.machine "__file__").isSome)) =
      some (true, true, false, false, false) := by
    decide +kernel
  obtain ⟨⟨a, b⟩, v, begun, seen⟩ := Emission.returned seen
  rw [show r.2 = v from congrArg Prod.snd begun] at seen
  simp only [Prod.mk.injEq, Option.isSome_eq_false_iff, Option.isNone_iff_eq_none,
    List.isEmpty_eq_false_iff, List.isEmpty_iff] at seen
  obtain ⟨kept, silent, ran, unnamed, unfiled⟩ := seen
  refine ⟨a, b, v, begun, compile_identifies rfl names_standard begun (fun name _ t ht =>
    Emission.Trial.apart_of_keeps (List.all_eq_true.1 kept t ht) _ _)
    (fun _ _ t ht => by rw [silent] at ht; cases ht), ran, ?_, ?_⟩ <;> intro u there
  · rw [unnamed] at there
    cases there
  · rw [unfiled] at there
    cases there

def usingFile : Context :=
  { source := "class T: pass\n", className := "T", namespaces := ["lib"]
    references := [.file "/lib.py"] }

def withFile : Workshop :=
  { machine :=
      { files := { folders := [["tmp"]], texts := [(["lib.py"], "__all__ = ['__name__']\n")] } } }

/-- A source finds itself under the name of a module that it takes in. -/
theorem compile_misidentifies :
    let c : Compiler := {}
    ∃ a b v p n, (c.toUnit usingFile).run.run (c.enter usingFile withFile).1 = (.ok (a, b), v) ∧
      Emission.Begins a b v.machine p n ∧ Emission.Stands n b.module "__name__" (some (.text "lib")) ∧
      ¬Emission.Identified n b.module c.space (c.sourceFile usingFile (c.newFolder withFile)) := by
  intro c
  let r := (c.toUnit usingFile).run.run (c.enter usingFile withFile).1
  have seen : r.1.toOption.map (fun u =>
      let course := Emission.course u.1 u.2 r.2.machine
      ((Emission.trials (course.loading ++ course.taking)).all (fun t =>
          t.start.keeps (t.asked course.loaded)),
        (Emission.wordings (course.loading ++ course.taking)).isEmpty, course.running.isEmpty,
        (Emission.brought? u.1 u.2 r.2.machine "__name__").any (Value.agrees · (.text "lib")))) =
      some (true, true, false, true) := by
    decide +kernel
  obtain ⟨⟨a, b⟩, v, begun, seen⟩ := Emission.returned seen
  rw [show r.2 = v from congrArg Prod.snd begun] at seen
  simp only [Prod.mk.injEq, List.isEmpty_eq_false_iff, List.isEmpty_iff] at seen
  obtain ⟨kept, silent, ran, brought⟩ := seen
  obtain ⟨u, brought, same⟩ := (Option.any_eq_true _ _).1 brought
  obtain rfl := Value.eq_of_agrees same
  obtain ⟨given, -⟩ := of_run_toUnit begun
  obtain ⟨attrs, found, -⟩ := given.labelled names_standard
  obtain ⟨id, source⟩ := given.source
  have apart (t : Emission.Trial) (ht : t ∈ Emission.trials ((Emission.course a b v.machine).loading ++
      (Emission.course a b v.machine).taking)) :
      t.Apart b.module (Emission.course a b v.machine).loaded "__name__" :=
    Emission.Trial.apart_of_keeps (List.all_eq_true.1 kept t ht) _ _
  have words : ∀ t ∈ Emission.wordings ((Emission.course a b v.machine).loading ++
      (Emission.course a b v.machine).taking), t.Apart b.module "__name__" := by
    rw [silent]
    exact fun _ h => by cases h
  obtain ⟨p, n, begins⟩ := Emission.begins_of_running found source apart words ran
  have stands := (Emission.prepared_of_running ran).stands found apart words
  rw [brought, Option.some_or] at stands
  obtain ⟨o, entered, named⟩ := stands.run_enter (by decide) (by decide) p
  obtain rfl : n = o := congrArg Prod.snd (begins.enters.symm.trans entered)
  refine ⟨a, b, v, p, n, begun, begins, named, fun identified => ?_⟩
  have same : c.space = "lib" := by simpa using identified.name.unique named
  exact absurd same (by decide)

end Compiler

end Stencil
