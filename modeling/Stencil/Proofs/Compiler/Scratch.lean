import Stencil.Proofs.Compiler.Verdict

/-!
Scratch folders. A compilation makes one folder, and whoever gets artifacts gets them with that folder.
Of the ways to end without artifacts only one clears up: references that are refused by a failure that
the compiler announces. All others leave the folder to nobody (`compile_scratch`).
-/

namespace Stencil

open Script

namespace Compiler

def artifacts? : Except Failure Product → Option Artifacts
  | .ok product => some product.artifacts
  | .error failure => failure.artifacts?

def Tidy (folder : String) (result : Except Failure Product) (files : Files) : Prop :=
  files.isFolder folder = true → ∃ artifacts, artifacts? result = some artifacts ∧
    artifacts.folder = some folder

def Fresh (c : Compiler) (w : Workshop) : Prop :=
  ∀ place, w.machine.files.place? (c.newFolder w) = some place → w.machine.files.Free place

/-- The references of a context are refused, by a failure that the compiler announces, after its source
was written to a folder. -/
def Withdrawn (c : Compiler) (context : Context) (folder : String) (v : Workshop) : Prop :=
  ∃ path u failure x, (c.store context folder).run.run v = (.ok path, u) ∧
    (c.resolveEach context).run.run u = (.error failure, x) ∧ failure.isAnnounced = true

section stages

variable {c : Compiler} {context : Context} {folder path : String} {v w : Workshop}

def Hands (folder : String) (code : Work Product) : Prop :=
  ∀ w a, artifacts? (code.run.run w).1 = some a → a.folder = some folder

theorem Hands.bind {α : Type} {code : Work α} {f : α → Work Product}
    (first : Fails (fun f => f.artifacts? = none) code) (h : ∀ a, Hands folder (f a)) :
    Hands folder (code >>= f) := by
  intro w a handed
  rw [run_bind] at handed
  rcases hc : code.run.run w with ⟨s | b, v⟩ <;> rw [hc] at handed
  · rw [artifacts?, first w s v hc] at handed
    cases handed
  · exact h b v a handed

theorem hands_reject {artifacts : Artifacts} (h : artifacts.folder = some folder)
    (entries : List Report.Entry) : Hands folder (reject context artifacts entries) := by
  rintro w a ⟨⟩
  exact h

theorem hands_throw {failure : Failure} (h : failure.artifacts? = none) :
    Hands folder (throw failure) := by
  intro w a handed
  change failure.artifacts? = some a at handed
  rw [h] at handed
  cases handed

theorem hands_judge (c : Compiler) (context : Context) (r : Emitted) :
    Hands r.folder (c.judge context r) := by
  refine Hands.bind (fails_entriesOf _) fun entries => Hands.bind (fails_recordAll _) fun _ => ?_
  unfold conclude
  dsimp only
  split
  · exact Hands.bind (fails_modify _) fun _ => hands_reject rfl _
  · split
    · exact Hands.bind (fails_modify _) fun _ => hands_throw rfl
    · refine Hands.bind fails_get fun w => ?_
      split
      · exact hands_throw rfl
      · exact hands_reject rfl _
      · refine Hands.bind (fails_onMachine _) fun _ => Hands.bind (fails_modify _) fun _ => ?_
        rintro w a ⟨⟩
        rfl

theorem hands_fromFolder (c : Compiler) (context : Context) (folder : String) :
    Hands folder (c.fromFolder context folder) :=
  Hands.bind (fails_store c context folder) fun path =>
    Hands.bind (fails_resolveAll c context folder) fun ds =>
      Hands.bind (fails_emitInto c context path ds) fun _ => hands_judge c context _

theorem apart_files : Apart fun w => w.machine.files :=
  ⟨fun _ _ kept => kept, fun _ _ => rfl, fun _ _ => rfl⟩

theorem leaves_judge (c : Compiler) (context : Context) (r : Emitted) :
    Leaves (fun w => w.machine.files) (c.judge context r) := by
  refine (Apart.entriesOf _).bind fun entries => Leaves.bind ?_ fun _ => apart_files.conclude c context r _
  exact Leaves.bind (leaves_modify fun _ => rfl) fun _ => apart_files.noteWarnings entries

theorem withdrawn_iff (stored : (c.store context folder).run.run v = (.ok path, w)) :
    Withdrawn c context folder v ↔
      ∃ failure x, (c.resolveEach context).run.run w = (.error failure, x) ∧
        failure.isAnnounced = true := by
  refine ⟨?_, fun ⟨failure, x, refused⟩ => ⟨path, w, failure, x, stored, refused⟩⟩
  rintro ⟨path', u, failure, x, stored', refused⟩
  rw [stored] at stored'
  cases stored'
  exact ⟨failure, x, refused⟩

/-- The files that the steps of a compilation leave: the scratch folder goes with all that is in it if
the references are refused, and otherwise it stays. -/
theorem run_fromFolder_cases (c : Compiler) (context : Context) (folder : String) (v : Workshop) :
    let result := ((c.fromFolder context folder).run.run v).1
    let files := ((c.fromFolder context folder).run.run v).2.machine.files
    Withdrawn c context folder v ∧ artifacts? result = none ∧
      (∃ place, v.machine.files.place? (c.sourceFile context folder) = some place ∧
        files = (v.machine.files.withText place context.source).removeFolder folder) ∨
    ¬Withdrawn c context folder v ∧ (files = v.machine.files ∨
      ∃ place, files = v.machine.files.withText place context.source) := by
  unfold fromFolder
  rw [run_bind]
  obtain ⟨failure, -, ran⟩ | ⟨place, u, there, stored, text⟩ := run_store_cases c context folder v
  · rw [ran]
    refine .inr ⟨?_, .inl rfl⟩
    rintro ⟨path, u, failure', x, stored, -⟩
    rw [ran] at stored
    cases stored
  rw [stored]
  dsimp only
  rw [run_bind]
  rw [withdrawn_iff stored]
  have kept := apart_files.resolveEach c context u
  rcases hr : (c.resolveEach context).run.run u with ⟨failure | ds, x⟩ <;> rw [hr] at kept
  · rw [run_resolveAll_error hr]
    have bare : failure.artifacts? = none := fails_resolveEach u failure x hr
    cases announced : failure.isAnnounced with
    | true =>
      refine .inl ⟨⟨failure, x, rfl, announced⟩, bare, place, there, ?_⟩
      dsimp only at kept
      simp only [if_true, kept, text]
    | false =>
      refine .inr ⟨?_, .inr ⟨place, kept.trans text⟩⟩
      rintro ⟨_, _, ⟨⟩, announced'⟩
      rw [announced] at announced'
      cases announced'
  · rw [run_resolveAll_ok hr]
    refine .inr ⟨by rintro ⟨_, _, ⟨⟩, -⟩, .inr ⟨place, ?_⟩⟩
    have rest : Leaves (fun w => w.machine.files)
        (c.emitInto context (c.sourceFile context folder) ds >>= fun emitted =>
          c.judge context ⟨folder, c.sourceFile context folder, emitted.1, emitted.2⟩) :=
      (apart_files.emitInto c context _ ds).bind fun _ => leaves_judge c context _
    have after := rest x
    dsimp only at after kept ⊢
    rw [after, kept, text]

end stages

structure Settled (c : Compiler) (context : Context) (folder : String) (v : Workshop)
    (before after : Files) (result : Except Failure Product) : Prop where
  /-- All artifacts that are handed over name the folder. -/
  handed : ∀ artifacts, artifacts? result = some artifacts → artifacts.folder = some folder
  /-- Refused references leave the files as they were; in every other case the folder stays. -/
  cleared : Withdrawn c context folder v → artifacts? result = none ∧ after = before
  left : ¬Withdrawn c context folder v →
    before.isFolder folder = false ∧ after.isFolder folder = true
  tidy : Tidy folder result after ↔
    Withdrawn c context folder v ∨ (∃ product, result = .ok product) ∨
      ∃ report artifacts, result = .error (.rejected report artifacts)
  /-- A compilation without artifacts abides by the law if it leaves the files as they were. -/
  restored : artifacts? result = none → (Tidy folder result after ↔ after = before)

theorem artifacts?_eq_some_iff {result : Except Failure Product} :
    (∃ artifacts, artifacts? result = some artifacts) ↔
      (∃ product, result = .ok product) ∨
        ∃ report artifacts, result = .error (.rejected report artifacts) := by
  rcases result with failure | product
  · cases failure <;> simp [artifacts?, Failure.artifacts?]
  · simp [artifacts?]

theorem compile_files (c : Compiler) (context : Context) (w : Workshop) :
    ((c.compile context).run w).2.machine =
      ((c.carryOut context).run.run (c.enter context w).1).2.machine := by
  unfold compile
  generalize c.carryOut context = code
  rfl

theorem tidy_iff {folder : String} {result : Except Failure Product} {files : Files}
    (handed : ∀ a, artifacts? result = some a → a.folder = some folder) :
    Tidy folder result files ↔
      files.isFolder folder = false ∨ ∃ artifacts, artifacts? result = some artifacts := by
  rw [Tidy]
  constructor
  · intro tidy
    cases hf : files.isFolder folder with
    | false => exact .inl rfl
    | true =>
      obtain ⟨artifacts, owner, -⟩ := tidy hf
      exact .inr ⟨artifacts, owner⟩
  · rintro (gone | ⟨artifacts, owner⟩) still
    · rw [gone] at still
      cases still
    · exact ⟨artifacts, owner, handed artifacts owner⟩

theorem removeFolder_stored {c : Compiler} {context : Context} {folder text : String} {before : Files}
    {place inside : List String} (plain : Path.Plain c.space) (there : before.place? folder = some place)
    (free : before.Free place)
    (leads : (before.withFolder place).place? (c.sourceFile context folder) = some inside) :
    ((before.withFolder place).withText inside text).removeFolder folder = before := by
  obtain ⟨s, rest, begins, down⟩ :=
    Path.segments_dotted plain (context.className ++ "." ++ c.backend.extension)
  have name : c.moduleName context ++ "." ++ c.backend.extension =
      c.space ++ "." ++ (context.className ++ "." ++ c.backend.extension) := by
    simp only [moduleName, String.append_assoc]
  have relative : Path.isAbsolute (c.moduleName context ++ "." ++ c.backend.extension) = false := by
    rw [name, String.append_assoc]
    exact Path.isAbsolute_of_plain plain _
  have lies := Files.place?_inside free there relative (name ▸ begins) down leads
  exact Files.removeFolder_of_free free there (lies ▸ List.prefix_append _ _)

theorem settled_of_made {c : Compiler} {context : Context} {place : List String} {v w : Workshop}
    {folder : String} {before : Files} {result : Except Failure Product} (plain : Path.Plain c.space)
    (there : before.place? folder = some place) (free : before.Free place)
    (made : v.machine.files = before.withFolder place)
    (ran : (c.fromFolder context folder).run.run v = (result, w)) :
    Settled c context folder v before w.machine.files result := by
  have cases := run_fromFolder_cases c context folder v
  have handed : ∀ a, artifacts? ((c.fromFolder context folder).run.run v).1 = some a →
      a.folder = some folder := hands_fromFolder c context folder v
  dsimp only at cases
  rw [ran, made] at cases
  rw [ran] at handed
  dsimp only at cases handed
  generalize w.machine.files = after at cases ⊢
  have missing : before.isFolder folder = false := free.isFolder there
  have tidy : Tidy folder result after ↔ _ := tidy_iff handed
  obtain ⟨withdrawn, bare, inside, leads, removed⟩ | ⟨stays, kept⟩ := cases
  · have back : after = before := removed.trans (removeFolder_stored plain there free leads)
    rw [back] at tidy ⊢
    refine ⟨handed, fun _ => ⟨bare, rfl⟩, fun stays => absurd withdrawn stays, ?_, fun _ => ?_⟩
    · exact ⟨fun _ => .inl withdrawn, fun _ => tidy.2 (.inl missing)⟩
    · exact ⟨fun _ => rfl, fun _ => tidy.2 (.inl missing)⟩
  · have still : after.isFolder folder = true := by
      obtain rfl | ⟨inside, rfl⟩ := kept
      · exact Files.isFolder_withFolder there
      · rw [Files.isFolder_withText]
        exact Files.isFolder_withFolder there
    rw [still] at tidy
    refine ⟨handed, fun withdrawn => absurd withdrawn stays, fun _ => ⟨missing, still⟩, ?_, ?_⟩
    · rw [tidy, artifacts?_eq_some_iff]
      simp [stays]
    · intro bare
      rw [tidy, bare]
      constructor
      · rintro (gone | ⟨_, ⟨⟩⟩)
        cases gone
      · rintro rfl
        rw [missing] at still
        cases still

theorem compile_scratch {c : Compiler} {context : Context} {w : Workshop}
    (plain : Path.Plain c.space) (fresh : c.Fresh w) :
    (∀ failure v, c.makeFolder.run.run (c.enter context w).1 = (.error failure, v) →
      ((c.compile context).run w).1 = .error failure ∧ failure.artifacts? = none ∧
        ((c.compile context).run w).2.machine.files = w.machine.files) ∧
    ∀ folder v, c.makeFolder.run.run (c.enter context w).1 = (.ok folder, v) →
      Settled c context folder v w.machine.files ((c.compile context).run w).2.machine.files
        ((c.compile context).run w).1 := by
  rw [compile_files, compile_eq, carryOut_eq, run_bind]
  constructor
  · intro failure v failed
    rw [failed]
    obtain ⟨kind, ran⟩ | ⟨place, -, ran⟩ := run_makeFolder_cases c (c.enter context w).1 <;>
      rw [ran] at failed <;> cases failed
    exact ⟨rfl, rfl, rfl⟩
  · intro folder v made
    rw [made]
    dsimp only
    obtain ⟨kind, ran⟩ | ⟨place, there, ran⟩ := run_makeFolder_cases c (c.enter context w).1 <;>
      rw [ran] at made
    · cases made
    · obtain ⟨named, changed⟩ := Prod.mk.inj made
      rw [newFolder_enter, machine_enter] at there
      have free : w.machine.files.Free place := fresh place there
      have held : v.machine.files = w.machine.files.withFolder place := by
        rw [← changed]
        dsimp only
        rw [machine_enter]
        exact Files.makeFolder_of_free there free
      rw [← Except.ok.inj named, newFolder_enter]
      rcases ended : (c.fromFolder context (c.newFolder w)).run.run v with ⟨result, u⟩
      exact settled_of_made plain there free held ended

/-- References that are of no use leave nothing behind. -/
theorem compile_scratch_refused :
    let c : Compiler := {}
    let context : Context :=
      { source := "class T: pass\n", className := "T", references := [.bytes []] }
    let w : Workshop := { machine := { files := { folders := [["tmp"]] } } }
    Path.Plain c.space ∧ c.Fresh w ∧
      ∃ folder v, c.makeFolder.run.run (c.enter context w).1 = (.ok folder, v) ∧
        Withdrawn c context folder v ∧
        Settled c context folder v w.machine.files ((c.compile context).run w).2.machine.files
          ((c.compile context).run w).1 := by
  intro c context w
  have plain : Path.Plain c.space := by decide
  have leads : w.machine.files.place? (c.newFolder w) = some ["tmp", "kiln_<1>"] := by decide +kernel
  have fresh : c.Fresh w := by
    intro place there
    rw [leads] at there
    cases there
    exact ⟨by decide, by decide, by decide⟩
  have made : (c.makeFolder.run.run (c.enter context w).1).1.toOption.map id =
      some "/tmp/kiln_<1>" := by decide +kernel
  obtain ⟨folder, v, ran, rfl⟩ := Emission.returned made
  have settled := (compile_scratch plain fresh).2 _ v ran
  refine ⟨plain, fresh, _, v, ran, Classical.byContradiction fun stays => ?_, settled⟩
  have gone : ((c.compile context).run w).2.machine.files.isFolder "/tmp/kiln_<1>" = false := by
    decide +kernel
  rw [(settled.left stays).2] at gone
  cases gone

/-- A module that can never be reclaimed leaves a folder without an owner. -/
theorem compile_abandons :
    let c : Compiler := { define := fun name => Builder.make name "kiln.dynamic" .run }
    let context : Context := { source := "class T: pass\n", className := "T" }
    let w : Workshop := { machine := { files := { folders := [["tmp"]] } } }
    ∃ folder v, c.makeFolder.run.run (c.enter context w).1 = (.ok folder, v) ∧
      ¬Tidy folder ((c.compile context).run w).1 ((c.compile context).run w).2.machine.files := by
  intro c context w
  have made : (c.makeFolder.run.run (c.enter context w).1).1.toOption.map id =
      some "/tmp/kiln_<1>" := by decide +kernel
  obtain ⟨folder, v, ran, rfl⟩ := Emission.returned made
  refine ⟨_, v, ran, fun law => ?_⟩
  have left : (artifacts? ((c.compile context).run w).1,
      ((c.compile context).run w).2.machine.files.isFolder "/tmp/kiln_<1>") = (none, true) := by
    decide +kernel
  obtain ⟨bare, still⟩ := Prod.mk.inj left
  obtain ⟨artifacts, owner, -⟩ := law still
  rw [bare] at owner
  cases owner

end Compiler

end Stencil
