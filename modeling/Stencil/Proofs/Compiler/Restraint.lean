import Stencil.Proofs.Compiler.Notes
import Stencil.Proofs.Compiler.Scratch
import Stencil.Proofs.Emission.Restraint

/-!
Compilations that leave the process as it was. A compilation makes a module of its own, which it does
not register, and leaves its scope again. What else happens to modules and to their table is done by
code of others; if that leaves alone what was there before, the compilation does too, however it ends
(`compile_restrained`).
-/

namespace Stencil

open Script

theorem Script.Run.still_pathOf {m : Machine} (c : ClassRef) : (Run.pathOf c).Still m := by
  cases c with
  | library name => exact Run.still_nameOf (.library name)
  | defined ref =>
    refine (Run.still_object ref).bind fun o => ?_
    cases o <;> exact Run.still_pure _

theorem Builder.intact_make {before m n : Machine} {name space : String} {b : Builder}
    (h : (Builder.make name space .runAndCollect).run m = (.ok b, n)) (intact : Intact before m) :
    Intact before n ∧ Fresh before b.module := by
  cases h
  exact ⟨(intact.push _).of_eq rfl rfl, intact.fresh⟩

namespace Compiler

variable {α β : Type} {before : Machine} {c : Compiler} {context : Context} {folder path : String}
  {v w : Workshop}

def Guards (before : Machine) (code : Work α) (w : Workshop) : Prop :=
  Intact before w.machine → Intact before (code.run.run w).2.machine

section laws

variable {code : Work α} {f : α → Work β}

theorem Guards.bind (first : Guards before code w)
    (h : ∀ a v, code.run.run w = (.ok a, v) → Guards before (f a) v) :
    Guards before (code >>= f) w := by
  intro intact
  have kept := first intact
  rw [run_bind]
  rcases hc : code.run.run w with ⟨s | a, v⟩ <;> rw [hc] at kept
  · exact kept
  · exact h a v hc kept

theorem Guards.tryCatch {handler : Failure → Work α} (first : Guards before code w)
    (h : ∀ s v, Guards before (handler s) v) : Guards before (tryCatch code handler) w := by
  intro intact
  have kept := first intact
  rw [run_tryCatch]
  rcases hc : code.run.run w with ⟨s | a, v⟩ <;> rw [hc] at kept
  · exact h s v kept
  · exact kept

theorem guards_pure (a : α) : Guards before (pure a : Work α) w := id

theorem guards_throw (f : Failure) : Guards before (throw f : Work α) w := id

theorem guards_get : Guards before (get : Work Workshop) w := id

theorem guards_modify {change : Workshop → Workshop} (heap : (change w).machine.heap = w.machine.heap)
    (modules : (change w).machine.modules = w.machine.modules) :
    Guards before (modify change : Work PUnit) w := fun intact => intact.of_eq heap modules

theorem guards_log (level : Int) (message : String) (fields : List (String × Datum)) :
    Guards before (log level message fields) w := guards_modify rfl rfl

theorem guards_setFiles (f : Files) : Guards before (setFiles f) w := guards_modify rfl rfl

theorem guards_onMachine {code : Run α} (h : Run.Spares before code w.machine) :
    Guards before (onMachine code) w := by
  intro intact
  rw [run_onMachine_eq]
  exact h intact

end laws

section stages

theorem guards_makeFolder : Guards before c.makeFolder w := by
  intro intact
  obtain ⟨kind, ran⟩ | ⟨place, -, ran⟩ := run_makeFolder_cases c w <;> rw [ran]
  · exact intact
  · exact intact.of_eq rfl rfl

theorem guards_store : Guards before (c.store context folder) w := by
  refine Guards.bind (fun intact => ?_) fun _ _ _ => (guards_log _ _ _).bind fun _ _ _ => guards_pure _
  obtain ⟨failure, -, ran⟩ | ⟨place, -, ran⟩ :=
    run_writeSource_cases (c.sourceFile context folder) context.source w <;> rw [ran]
  · exact intact
  · exact intact.of_eq rfl rfl

theorem guards_resolveAll
    (resolves : ∀ included m, Run.Spares before (c.resolver context included) m) :
    Guards before (c.resolveAll folder context) w := by
  have each : Guards before (c.resolveEach context) w := by
    refine guards_get.bind fun v _ _ => (guards_onMachine (resolves _ _)).bind fun supplies _ _ => ?_
    refine guards_get.bind fun v _ _ => ?_
    split
    · exact guards_pure _
    · exact guards_throw _
  refine each.tryCatch fun s v => ?_
  cases s.isAnnounced with
  | true => exact (guards_get.bind fun _ _ _ => guards_setFiles _).bind fun _ _ _ => guards_throw s
  | false => exact (guards_pure ()).bind fun _ _ _ => guards_throw s

theorem guards_noteWarnings (entries : List Report.Entry) : Guards before (noteWarnings entries) w := by
  induction entries generalizing w with
  | nil => exact guards_pure ()
  | cons e rest ih =>
    unfold noteWarnings
    split
    · exact (guards_log _ _ _).bind fun _ _ _ => ih
    · exact ih

theorem guards_conclude (r : Emitted) (entries : List Report.Entry) :
    Guards before (c.conclude context r entries) w := by
  unfold conclude
  dsimp only
  split
  · exact (guards_log _ _ _).bind fun _ _ _ => guards_throw _
  · split
    · exact (guards_log _ _ _).bind fun _ _ _ => guards_throw _
    · refine guards_get.bind fun v _ _ => ?_
      split
      · exact guards_throw _
      · exact guards_throw _
      · refine (guards_onMachine (.of_still (Run.still_pathOf _))).bind fun _ _ _ => ?_
        exact (guards_log _ _ _).bind fun _ _ _ => guards_pure _

theorem guards_judge (r : Emitted) : Guards before (c.judge context r) w := by
  refine Guards.bind ?_ fun entries _ _ => Guards.bind ?_ fun _ _ _ => guards_conclude r entries
  · unfold entriesOf
    split
    · exact guards_pure _
    · exact guards_throw _
  · exact Guards.bind (guards_modify rfl rfl) fun _ _ _ => guards_noteWarnings entries

end stages

/-- What the backend is given: an assembly of a source and its dependencies, and the module that it
is emitted into. -/
def prepare (c : Compiler) (context : Context) (path : String) (dependencies : List Dependency) :
    Work (Assembly × Builder) := do
  let name := c.moduleName context
  log debugLevel ("Resolved " ++ toString dependencies.length ++ " references")
    [("references", .list (dependencies.map fun d => .text d.display))]
  let a : Assembly :=
    { name, dependencies
      sources := [⟨(← get).made, context.source, path⟩]
      options := { c.backend.options context with kind := .library } }
  let b ← onMachine (c.define name)
  modify fun w => { w with handed := some (a, b) }
  return (a, b)

theorem emitInto_eq (c : Compiler) (context : Context) (path : String)
    (dependencies : List Dependency) :
    c.emitInto context path dependencies =
      c.prepare context path dependencies >>= fun unit => do
        return (unit.2, ← onMachine (c.backend.emit unit.1 unit.2)) := by
  simp only [emitInto, prepare, bind_assoc, pure_bind]

def toUnit (c : Compiler) (context : Context) : Work (Assembly × Builder) := do
  let folder ← c.makeFolder
  let path ← c.store context folder
  let dependencies ← c.resolveAll folder context
  c.prepare context path dependencies

def Collects (c : Compiler) : Prop :=
  ∀ name, ∃ label space, c.define name = Builder.make label space .runAndCollect

/-- The code of others that has a part in a compilation leaves the modules and their table alone: that
which resolves references, and all that the emission comes to. -/
structure Restrained (c : Compiler) (context : Context) (w : Workshop) : Prop where
  resolves : ∀ included m, Run.Spares w.machine (c.resolver context included) m
  emits : ∀ a b v, (c.toUnit context).run.run (c.enter context w).1 = (.ok (a, b), v) →
    Emission.Restrained w.machine a b v.machine

theorem run_prepare {m : Machine} {b : Builder}
    (made : (c.define (c.moduleName context)).run w.machine = (.ok b, m)) (path : String)
    (ds : List Dependency) :
    ∃ a v, (c.prepare context path ds).run.run w = (.ok (a, b), v) ∧ v.machine = m := by
  unfold prepare
  have noted (level : Int) (message : String) (fields : List (String × Datum)) :
      ∃ u, (log level message fields).run.run w = (.ok (), u) ∧ u.machine = w.machine :=
    ⟨_, rfl, rfl⟩
  obtain ⟨u, noted, same⟩ := noted debugLevel ("Resolved " ++ toString ds.length ++ " references")
    [("references", .list (ds.map fun d => .text d.display))]
  rw [← same] at made
  rw [run_bind, noted]
  dsimp only
  rw [run_bind, run_get]
  dsimp only
  rw [run_bind, run_onMachine made]
  exact ⟨_, _, rfl, rfl⟩

theorem guards_emitInto (standard : c.backend.emit = Emission.emit) (collects : c.Collects)
    {ds : List Dependency}
    (h : ∀ a b v, (c.prepare context path ds).run.run w = (.ok (a, b), v) →
      Emission.Restrained before a b v.machine) :
    Guards before (c.emitInto context path ds) w := by
  intro intact
  obtain ⟨label, space, define⟩ := collects (c.moduleName context)
  obtain ⟨b, m, made⟩ : ∃ b m, (c.define (c.moduleName context)).run w.machine = (.ok b, m) := by
    rw [define]
    exact ⟨_, _, rfl⟩
  obtain ⟨kept, fresh⟩ := Builder.intact_make (define ▸ made) intact
  obtain ⟨a, v, ran, rfl⟩ := run_prepare made path ds
  have emits : Guards before (onMachine (c.backend.emit a b)) v := by
    rw [standard]
    exact guards_onMachine (Emission.spares_emit fresh (h a b v ran))
  rw [emitInto_eq, run_bind, ran]
  exact (emits.bind fun _ _ _ => guards_pure _) kept

theorem guards_carryOut (standard : c.backend.emit = Emission.emit) (collects : c.Collects)
    (resolves : ∀ included m, Run.Spares before (c.resolver context included) m)
    (emits : ∀ a b v, (c.toUnit context).run.run w = (.ok (a, b), v) →
      Emission.Restrained before a b v.machine) :
    Guards before (c.carryOut context) w := by
  have emission : Guards before (c.toEmission context) w := by
    refine guards_makeFolder.bind fun folder w₁ made => ?_
    refine guards_store.bind fun path w₂ stored => ?_
    refine (guards_resolveAll resolves).bind fun ds w₃ resolved => ?_
    refine (guards_emitInto standard collects fun a b v ran => ?_).bind fun _ _ _ => guards_pure _
    refine emits a b v ?_
    rw [toUnit, run_bind, made]
    dsimp only
    rw [run_bind, stored]
    dsimp only
    rw [run_bind, resolved]
    exact ran
  exact emission.bind fun r _ _ => guards_judge r

theorem leaves_scope (c : Compiler) (context : Context) :
    Leaves (fun w => w.scope) (c.carryOut context) := by
  have apart : Apart fun w : Workshop => w.scope := ⟨fun _ _ _ => rfl, fun _ _ => rfl, fun _ _ => rfl⟩
  refine Leaves.bind (fun w => ?_) fun r => ?_
  · obtain ⟨rs, notes, -⟩ := quiet_toEmission c context w
    exact notes.scope
  · refine (Apart.entriesOf _).bind fun entries => Leaves.bind ?_ fun _ => apart.conclude c context r _
    exact Leaves.bind (leaves_modify fun _ => rfl) fun _ => apart.noteWarnings entries

/-- A compilation that leaves the process as it was: the table of modules, what was in each module,
and the id of the compilation in progress. -/
structure Unchanged (before after : Workshop) : Prop where
  modules : Intact before.machine after.machine
  scope : after.scope.current = before.scope.current

theorem sparing_arranging (f : List Reference → List Reference → List Reference) (context : Context)
    (included : List Reference) : Run.Sparing (Resolver.arranging f context included) := .pure _

def usingBase : Context :=
  { source := "class T: pass\n", className := "T", namespaces := ["base", "lib"]
    references := [.module 0, .file "/lib.py"] }

def withBase : Workshop :=
  { machine :=
      { heap := #[.module (.ofList [("__name__", .text "base"), ("x", .int 1)])]
        modules := .ofList [("base", .object 0)]
        files := { folders := [["tmp"]], texts := [(["lib.py"], "y = 2\n")] } } }

theorem restrained_base : ({} : Compiler).Restrained usingBase withBase := by
  refine ⟨fun included m => sparing_arranging _ _ _ _ m, fun a b v ran => ?_⟩
  let s : Source := ⟨1, "class T: pass\n", "/tmp/kiln_<1>/kiln.dynamic.T.py"⟩
  let a₀ : Assembly :=
    { name := "kiln.dynamic.T", sources := [s], options := { usings := ["base", "lib"] }
      dependencies := [{ name := some "base", module := some 0 }, { location := some "/lib.py" }] }
  let b₀ : Builder := ⟨"kiln.dynamic.T", "kiln.dynamic", .runAndCollect, 1⟩
  have unit : ((({} : Compiler).toUnit usingBase).run.run
      (({} : Compiler).enter usingBase withBase).1).1.toOption = some (a₀, b₀) := by decide +kernel
  let m₀ : Machine := ((({} : Compiler).toUnit usingBase).run.run
    (({} : Compiler).enter usingBase withBase).1).2.machine
  have kept : (Emission.places a₀ 1 (Emission.start a₀ b₀ m₀)).all (fun p =>
      p.isPlain 1 && (p.launch? 1).all (Launch.keeps withBase.machine)) = true := by
    decide +kernel
  have silent : (Emission.wordings (Emission.course a₀ b₀ m₀).events).isEmpty = true ∧
      (Emission.handed a₀ b₀ m₀).isEmpty = true := by decide +kernel
  have reached : m₀ = v.machine := congrArg (fun r => r.2.machine) ran
  rw [reached] at kept silent
  rw [ran] at unit
  obtain ⟨rfl, rfl⟩ := Prod.mk.inj (Option.some.inj unit)
  simp only [List.all_eq_true, Bool.and_eq_true, Option.all_eq_true] at kept
  rw [List.isEmpty_iff, List.isEmpty_iff] at silent
  exact {
    runs := fun p hp l hl => Launch.spares_of_keeps ((kept p hp).2 l hl)
    asks := fun p hp => Emission.Place.asks_of_isPlain (kept p hp).1
    words := by
      rw [silent.1]
      exact fun _ h => by cases h
    hands := by
      rw [silent.2]
      exact fun _ h => by cases h }

/-- A module with a function that is asked for names, and that keeps the last of them. -/
def askedModule : String :=
  "asked = None\n__all__ = ['x']\n" ++
    "def __getattr__(name):\n    global asked\n    asked = name\n    return 1\n"

end Compiler

end Stencil
