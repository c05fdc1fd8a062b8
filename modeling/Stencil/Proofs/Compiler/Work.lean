import Stencil.Compiler
import Stencil.Proofs.Files.Folder

/-!
The work of a compiler, step by step: how its parts follow one another, and which of them leave a part
of the workshop alone.
-/

namespace Stencil

open Script

theorem Script.Run.files_run {α : Type} (code : Run α) (m : Machine) :
    (code.run m).2.files = m.files := by
  rw [code.framed]
  rfl

namespace Compiler

variable {α β γ : Type}

theorem run_bind (code : Work α) (f : α → Work β) (w : Workshop) :
    (code >>= f).run.run w = match code.run.run w with
      | (.ok a, w) => (f a).run.run w
      | (.error s, w) => (.error s, w) := by
  change ExceptT.bindCont f (code.run.run w).1 (code.run.run w).2 = _
  rcases code.run.run w with ⟨_ | _, _⟩ <;> rfl

theorem of_run_bind {code : Work α} {f : α → Work β} {w w' : Workshop} {b : β}
    (h : (code >>= f).run.run w = (.ok b, w')) :
    ∃ a v, code.run.run w = (.ok a, v) ∧ (f a).run.run v = (.ok b, w') := by
  rw [run_bind] at h
  rcases hc : code.run.run w with ⟨s | a, v⟩ <;> rw [hc] at h
  · cases h
  · exact ⟨a, v, rfl, h⟩

theorem run_get (w : Workshop) : (get : Work Workshop).run.run w = (.ok w, w) := rfl

theorem run_tryCatch (code : Work α) (handler : Failure → Work α) (w : Workshop) :
    (tryCatch code handler).run.run w = match code.run.run w with
      | (.ok a, w) => (.ok a, w)
      | (.error f, w) => (handler f).run.run w := by
  rcases hc : code.run.run w with ⟨f | a, v⟩ <;>
    simp only [ExceptT.run_tryCatch, StateT.run_bind, hc] <;> rfl

def resultOf (m : Machine) : Except Stop α → Except Failure α
  | .ok a => .ok a
  | .error (.raised error _) => .error (.raised error (isOwn m error))
  | .error .exhausted => .error .exhausted

theorem run_onMachine_eq (code : Run α) (w : Workshop) :
    (onMachine code).run.run w =
      (resultOf (code.run w.machine).2 (code.run w.machine).1,
        { w with machine := (code.run w.machine).2 }) := by
  unfold onMachine
  rw [run_bind, run_get]
  dsimp only [StateT.run]
  rcases code.run w.machine with ⟨s | a, m⟩
  · cases s <;> rfl
  · rfl

theorem run_onMachine {code : Run α} {w : Workshop} {m : Machine} {a : α}
    (h : code.run w.machine = (.ok a, m)) :
    (onMachine code).run.run w = (.ok a, { w with machine := m }) := by
  rw [run_onMachine_eq, h]
  rfl

theorem of_run_onMachine {code : Run α} {w w' : Workshop} {a : α}
    (h : (onMachine code).run.run w = (.ok a, w')) :
    ∃ m, code.run w.machine = (.ok a, m) ∧ w' = { w with machine := m } := by
  rw [run_onMachine_eq] at h
  rcases hc : code.run w.machine with ⟨s | b, m⟩ <;> rw [hc] at h
  · cases s <;> cases h
  · cases h
    exact ⟨m, rfl, rfl⟩

def Leaves (part : Workshop → β) (code : Work α) : Prop :=
  ∀ w, part (code.run.run w).2 = part w

def Fails (kind : Failure → Prop) (code : Work α) : Prop :=
  ∀ w f v, code.run.run w = (.error f, v) → kind f

section leaves

variable {part : Workshop → γ} {code : Work α} {f : α → Work β} {kind : Failure → Prop}

theorem leaves_pure (a : α) : Leaves part (pure a : Work α) := fun _ => rfl

theorem leaves_throw (f : Failure) : Leaves part (throw f : Work α) := fun _ => rfl

theorem leaves_get : Leaves part (get : Work Workshop) := fun _ => rfl

theorem leaves_modify {change : Workshop → Workshop} (h : ∀ w, part (change w) = part w) :
    Leaves part (modify change : Work PUnit) := h

theorem Leaves.bind (first : Leaves part code) (h : ∀ a, Leaves part (f a)) :
    Leaves part (code >>= f) := by
  intro w
  have begun := first w
  rw [run_bind]
  rcases hc : code.run.run w with ⟨s | a, v⟩ <;> rw [hc] at begun
  · exact begun
  · exact (h a v).trans begun

theorem fails_pure (a : α) : Fails kind (pure a : Work α) := by
  rintro w f v ⟨⟩

theorem fails_throw {f : Failure} (h : kind f) : Fails kind (throw f : Work α) := by
  rintro w f v ⟨⟩
  exact h

theorem fails_get : Fails kind (get : Work Workshop) := by
  rintro w f v ⟨⟩

theorem fails_modify (change : Workshop → Workshop) : Fails kind (modify change : Work PUnit) := by
  rintro w f v ⟨⟩

theorem Fails.bind (first : Fails kind code) (h : ∀ a, Fails kind (f a)) :
    Fails kind (code >>= f) := by
  intro w s v failed
  rw [run_bind] at failed
  rcases hc : code.run.run w with ⟨s' | a, u⟩ <;> rw [hc] at failed
  · cases failed
    exact first w s v hc
  · exact h a u s v failed

end leaves

theorem run_onMachine_cases (code : Run α) (w : Workshop) :
    ∃ m result, (onMachine code).run.run w = (result, { w with machine := m }) ∧
      m.files = w.machine.files ∧
      (result = .error .exhausted ∨ (∃ error own, result = .error (.raised error own)) ∨
        ∃ a, result = .ok a) := by
  refine ⟨_, _, run_onMachine_eq code w, code.files_run w.machine, ?_⟩
  rcases (code.run w.machine).1 with (⟨error, scopes⟩ | _) | a
  · exact .inr (.inl ⟨_, _, rfl⟩)
  · exact .inl rfl
  · exact .inr (.inr ⟨a, rfl⟩)

structure Apart (part : Workshop → γ) : Prop where
  machine : ∀ w m, m.files = w.machine.files → part { w with machine := m } = part w
  journal : ∀ w journal, part { w with journal } = part w
  handed : ∀ w handed, part { w with handed } = part w

namespace Apart

variable {part : Workshop → γ}

theorem log (h : Apart part) (level : Int) (message : String) (fields : List (String × Datum)) :
    Leaves part (log level message fields) := leaves_modify fun w => h.journal w _

theorem onMachine (h : Apart part) (code : Run α) : Leaves part (onMachine code) := by
  intro w
  obtain ⟨m, result, ran, kept, -⟩ := run_onMachine_cases code w
  rw [ran]
  exact h.machine w m kept

theorem noteWarnings (h : Apart part) (entries : List Report.Entry) :
    Leaves part (noteWarnings entries) := by
  induction entries with
  | nil => exact leaves_pure ()
  | cons e rest ih =>
    unfold Compiler.noteWarnings
    split
    · exact (h.log _ _ _).bind fun _ => ih
    · exact ih

theorem resolveEach (h : Apart part) (c : Compiler) (context : Context) :
    Leaves part (c.resolveEach context) := by
  refine leaves_get.bind fun w => (h.onMachine _).bind fun supplies => leaves_get.bind fun v => ?_
  split
  · exact leaves_pure _
  · exact leaves_throw _

theorem emitInto (h : Apart part) (c : Compiler) (context : Context) (path : String)
    (ds : List Dependency) : Leaves part (c.emitInto context path ds) := by
  refine (h.log _ _ _).bind fun _ => leaves_get.bind fun w => (h.onMachine _).bind fun b => ?_
  refine Leaves.bind (leaves_modify fun w => h.handed w _) fun _ => ?_
  exact (h.onMachine _).bind fun e => leaves_pure _

theorem entriesOf (ds : List Diagnostic) : Leaves part (entriesOf ds) := by
  unfold Compiler.entriesOf
  split
  · exact leaves_pure _
  · exact leaves_throw _

theorem conclude (h : Apart part) (c : Compiler) (context : Context) (r : Emitted)
    (entries : List Report.Entry) : Leaves part (c.conclude context r entries) := by
  unfold Compiler.conclude
  dsimp only
  split
  · exact (h.log _ _ _).bind fun _ => leaves_throw _
  · split
    · exact (h.log _ _ _).bind fun _ => leaves_throw _
    · refine leaves_get.bind fun w => ?_
      split
      · exact leaves_throw _
      · exact leaves_throw _
      · exact (h.onMachine _).bind fun _ => (h.log _ _ _).bind fun _ => leaves_pure _

end Apart

def Failure.artifacts? : Failure → Option Artifacts
  | rejected _ artifacts => some artifacts
  | _ => none

def newFolder (c : Compiler) (w : Workshop) : String :=
  Path.join (c.config.folder w.environment w.systemFolder) (folderName c.config.marker (w.made + 1))

theorem newFolder_enter (c : Compiler) (context : Context) (w : Workshop) :
    c.newFolder (c.enter context w).1 = c.newFolder w := rfl

theorem machine_enter (c : Compiler) (context : Context) (w : Workshop) :
    (c.enter context w).1.machine = w.machine := rfl

section stages

variable {c : Compiler} {context : Context} {folder : String} {v w : Workshop}

theorem run_makeFolder (c : Compiler) (w : Workshop) :
    c.makeFolder.run.run w = match w.machine.files.place? (c.newFolder w) with
      | none => (.error (.system (if w.machine.files.isFile (c.config.folder w.environment w.systemFolder)
          then "NotADirectoryError" else "FileNotFoundError")), w)
      | some place => (.ok (c.newFolder w), { w with
          made := w.made + 1
          machine := { w.machine with files := w.machine.files.makeFolder place } }) := by
  unfold makeFolder
  rw [run_bind, run_get]
  dsimp only
  rw [newFolder]
  cases w.machine.files.place? _ <;> rfl

theorem run_makeFolder_cases (c : Compiler) (w : Workshop) :
    (∃ kind, c.makeFolder.run.run w = (.error (.system kind), w)) ∨
      ∃ place, w.machine.files.place? (c.newFolder w) = some place ∧
        c.makeFolder.run.run w = (.ok (c.newFolder w), { w with
          made := w.made + 1
          machine := { w.machine with files := w.machine.files.makeFolder place } }) := by
  rw [run_makeFolder]
  cases w.machine.files.place? (c.newFolder w) with
  | none => exact .inl ⟨_, rfl⟩
  | some place => exact .inr ⟨place, rfl, rfl⟩

theorem run_writeSource_cases (path text : String) (w : Workshop) :
    (∃ failure : Failure, failure.artifacts? = none ∧
      (writeSource path text).run.run w = (.error failure, w)) ∨
      ∃ place, w.machine.files.place? path = some place ∧
        (writeSource path text).run.run w = (.ok (), { w with
          machine := { w.machine with files := w.machine.files.withText place text } }) := by
  unfold writeSource
  rw [run_bind, run_get]
  dsimp only
  split
  · exact .inl ⟨_, rfl, rfl⟩
  · split
    · exact .inl ⟨_, rfl, rfl⟩
    · cases hw : w.machine.files.write? path text with
      | none => exact .inl ⟨_, rfl, rfl⟩
      | some files =>
        obtain ⟨place, there, rfl⟩ := Files.of_write? hw
        exact .inr ⟨place, there, rfl⟩

theorem run_store_cases (c : Compiler) (context : Context) (folder : String) (w : Workshop) :
    (∃ failure : Failure, failure.artifacts? = none ∧
      (c.store context folder).run.run w = (.error failure, w)) ∨
      ∃ place v, w.machine.files.place? (c.sourceFile context folder) = some place ∧
        (c.store context folder).run.run w = (.ok (c.sourceFile context folder), v) ∧
        v.machine.files = w.machine.files.withText place context.source := by
  unfold store
  rw [run_bind]
  obtain ⟨failure, bare, ran⟩ | ⟨place, there, ran⟩ :=
    run_writeSource_cases (c.sourceFile context folder) context.source w <;> rw [ran]
  · exact .inl ⟨failure, bare, rfl⟩
  · exact .inr ⟨place, _, there, rfl, rfl⟩

theorem run_resolveAll_error {failure : Failure}
    (h : (c.resolveEach context).run.run w = (.error failure, v)) :
    (c.resolveAll folder context).run.run w = (.error failure,
      if failure.isAnnounced then
        { v with machine := { v.machine with files := v.machine.files.removeFolder folder } }
      else v) := by
  rw [resolveAll, run_tryCatch, h]
  dsimp only
  cases failure.isAnnounced <;> rfl

theorem run_resolveAll_ok {ds : List Dependency}
    (h : (c.resolveEach context).run.run w = (.ok ds, v)) :
    (c.resolveAll folder context).run.run w = (.ok ds, v) := by
  rw [resolveAll, run_tryCatch, h]

theorem fails_onMachine {α : Type} (code : Run α) :
    Fails (fun f => f.artifacts? = none) (onMachine code) := by
  intro w f v failed
  obtain ⟨m, result, ran, -, rfl | ⟨_, _, rfl⟩ | ⟨_, rfl⟩⟩ := run_onMachine_cases code w <;>
    rw [ran] at failed <;> cases failed <;> rfl

theorem fails_entriesOf (ds : List Diagnostic) :
    Fails (fun f => f.artifacts? = none) (entriesOf ds) := by
  unfold entriesOf
  split
  · exact fails_pure _
  · exact fails_throw rfl

theorem fails_recordAll (entries : List Report.Entry) :
    Fails (fun f => f.artifacts? = none) (recordAll entries) := by
  have noted : Fails (fun f => f.artifacts? = none) (noteWarnings entries) := by
    induction entries with
    | nil => exact fails_pure ()
    | cons e rest ih =>
      unfold noteWarnings
      split
      · exact (fails_modify _).bind fun _ => ih
      · exact ih
  exact (fails_modify _).bind fun _ => noted

theorem fails_resolveEach : Fails (fun f => f.artifacts? = none) (c.resolveEach context) := by
  refine Fails.bind fails_get fun w => (fails_onMachine _).bind fun supplies => ?_
  refine Fails.bind fails_get fun v => ?_
  split
  · exact fails_pure _
  · exact fails_throw rfl

theorem fails_resolveAll (c : Compiler) (context : Context) (folder : String) :
    Fails (fun f => f.artifacts? = none) (c.resolveAll folder context) := by
  intro w f v failed
  rcases hr : (c.resolveEach context).run.run w with ⟨s | ds, u⟩
  · rw [run_resolveAll_error hr] at failed
    cases failed
    exact fails_resolveEach w _ _ hr
  · rw [run_resolveAll_ok hr] at failed
    cases failed

theorem fails_emitInto (c : Compiler) (context : Context) (path : String) (ds : List Dependency) :
    Fails (fun f => f.artifacts? = none) (c.emitInto context path ds) := by
  refine Fails.bind (fails_modify _) fun _ => Fails.bind fails_get fun w => ?_
  refine Fails.bind (fails_onMachine _) fun b => Fails.bind (fails_modify _) fun _ => ?_
  exact Fails.bind (fails_onMachine _) fun e => fails_pure _

theorem fails_store (c : Compiler) (context : Context) (folder : String) :
    Fails (fun f => f.artifacts? = none) (c.store context folder) := by
  intro w f v failed
  obtain ⟨failure, bare, ran⟩ | ⟨place, u, -, ran, -⟩ := run_store_cases c context folder w <;>
    rw [ran] at failed <;> cases failed
  exact bare

theorem fails_makeFolder (c : Compiler) : Fails (fun f => f.artifacts? = none) c.makeFolder := by
  intro w f v failed
  obtain ⟨kind, ran⟩ | ⟨place, -, ran⟩ := run_makeFolder_cases c w <;> rw [ran] at failed <;>
    cases failed
  rfl

theorem fails_toEmission (c : Compiler) (context : Context) :
    Fails (fun f => f.artifacts? = none) (c.toEmission context) :=
  (fails_makeFolder c).bind fun folder => (fails_store c context folder).bind fun path =>
    (fails_resolveAll c context folder).bind fun ds =>
      (fails_emitInto c context path ds).bind fun _ => fails_pure _

def fromFolder (c : Compiler) (context : Context) (folder : String) : Work Product := do
  let path ← c.store context folder
  let dependencies ← c.resolveAll folder context
  let emitted ← c.emitInto context path dependencies
  c.judge context ⟨folder, path, emitted.1, emitted.2⟩

theorem carryOut_eq (c : Compiler) (context : Context) :
    c.carryOut context = c.makeFolder >>= c.fromFolder context := by
  unfold carryOut toEmission fromFolder
  simp only [bind_assoc, pure_bind]

end stages

end Compiler

end Stencil
