import Stencil.Proofs.Emission.Loading
import Stencil.Proofs.Script.Intact

/-!
Code that is about to run. What is done to run a text, or the file of a dependency, ends in the code
itself: by then the text is read and checked, and the module that it runs in has what every module
begins with. Up to there nothing is written but the new module, and it is not registered.
-/

namespace Stencil

open Script Run

namespace Script

/-- Code that is about to run: a program, the module that it runs in, and the machine that it finds. -/
structure Launch where
  program : Program
  module : Nat
  machine : Machine

namespace Program

variable {before m : Machine} {module : Nat}

def furnish (module : Nat) : Run Unit := do
  let attrs := (← get).attributes module
  if !attrs.has "__builtins__" then
    match (← get).modules.get? "builtins" with
    | some (.object ref) => putAttribute module "__builtins__" (← new (.attributesOf ref))
    | _ => pure ()

def perform (p : Program) (module : Nat) : Run Unit := Interpreter.runBody p.file module p.body

theorem run_eq (p : Program) (module : Nat) :
    p.run module = furnish module >>= fun _ => p.perform module := by
  simp only [Program.run, furnish, perform, bind_assoc]
  refine bind_congr fun m => ?_
  split
  · rw [bind_assoc]
    refine bind_congr fun m => ?_
    rcases m.modules.get? "builtins" with _ | v
    · rw [pure_bind]
    · cases v <;> first | rw [pure_bind] | rw [bind_assoc]
  · rw [pure_bind]

def ofText (text file : String) : Run Program := do
  let text := if text.startsWith "\ufeff" then String.ofList (text.toList.drop 1) else text
  match ← read text file with
  | .error .nullCharacter => valueError ParseError.nullMessage
  | .error (.fault f) => refuse f.kind.name f.message file f.line
  | .ok tree =>
    match ← ofTree tree file (-1) with
    | .error misuse => refuse "SyntaxError" misuse.message file misuse.pos.line
    | .ok p => return p

theorem runText_eq (text file : String) (module : Nat) :
    runText text file module = ofText text file >>= fun p => p.run module := by
  simp only [runText, ofText, bind_assoc]
  refine bind_congr fun r => ?_
  split
  · rfl
  · rfl
  · rw [bind_assoc]
    refine bind_congr fun r => ?_
    split
    · rfl
    · rw [pure_bind]

def launch? (p : Program) (module : Nat) (m : Machine) : Option Launch :=
  match (furnish module).run m with
  | (.ok _, o) => some ⟨p, module, o⟩
  | (.error _, _) => none

theorem spares_furnish (fresh : Fresh before module) : Spares before (furnish module) m := by
  refine Spares.bind (.of_still still_get) fun _ _ _ => ?_
  dsimp only
  split
  · refine Spares.bind (.of_still still_get) fun _ o _ => ?_
    split
    · refine Spares.bind ?_ fun v o _ => spares_putAttribute fresh _ _
      exact ((sparing_alloc _).bind fun _ => .pure _) before o
    · exact .of_still (still_pure _)
  · exact .of_still (still_pure _)

theorem sparing_issueAll (category file : String) (issues : List (Nat × String)) :
    Sparing (issueAll category file issues) := by
  induction issues with
  | nil => exact .pure ()
  | cons issue rest ih => exact (sparing_issue _ _ _ _).bind fun _ => ih

theorem sparing_ofTree (t : Tree) (file : String) (level : Int) :
    Sparing (ofTree t file level) := by
  unfold ofTree
  split
  · refine (sparing_issueAll _ _ _).bind fun _ => ?_
    split <;> exact .pure _
  · exact sparing_raiseOf _ _

theorem sparing_ofText (text file : String) : Sparing (ofText text file) := by
  have refused (kind message : String) (line : Int) : Sparing (refuse kind message file line : Run Program) :=
    (sparing_alloc _).bind fun _ => sparing_throw _
  refine Sparing.bind ((sparing_issueAll _ _ _).bind fun _ => .pure _) fun r => ?_
  split
  · exact sparing_raiseOf _ _
  · exact refused _ _ _
  · refine (sparing_ofTree _ _ _).bind fun r => ?_
    split
    · exact refused _ _ _
    · exact .pure _

end Program

def Launch.Spares (before : Machine) (l : Launch) : Prop :=
  Run.Spares before (l.program.perform l.module) l.machine

def Launch.keeps (before : Machine) (l : Launch) : Bool :=
  before.keeps ((l.program.perform l.module).run l.machine).2

theorem Launch.spares_of_keeps {before : Machine} {l : Launch} (h : l.keeps before = true) :
    l.Spares before := fun _ => Intact.of_keeps h

theorem Program.spares_run {before m : Machine} {p : Program} {module : Nat}
    (fresh : Fresh before module) (h : ∀ l, p.launch? module m = some l → l.Spares before) :
    Spares before (p.run module) m := by
  rw [run_eq]
  refine (spares_furnish fresh).bind fun _ o ran => h ⟨p, module, o⟩ ?_
  rw [launch?, ran]

end Script

namespace Dependency

variable {before m : Machine} {d : Dependency}

def searched : Option String → Run (Option Value)
  | none => return none
  | some folder => do return some (← newList [.text folder])

def readyFile (name file text : String) (search : Option String) : Run (Program × Nat) := do
  let module ← alloc (.module (fileAttributes name file (← searched search)))
  let p ← Program.ofText text file
  Program.furnish module
  return (p, module)

theorem runFile_eq (name file text : String) (search : Option String) :
    runFile name file text search = readyFile name file text search >>= fun (p, module) => do
      p.perform module
      return module := by
  cases search <;>
    simp only [runFile, readyFile, searched, Program.runText_eq, Program.run_eq, bind_assoc, pure_bind]

def launch? (d : Dependency) (m : Machine) : Option Launch := do
  let file ← d.executed? m
  let location ← d.location
  let text ← m.files.text? (fileAt m.files location)
  let name := d.nameAt (fileAt m.files location)
  match (readyFile name file text (searchAt m.files location)).run m with
  | (.ok (p, module), o) => some ⟨p, module, o⟩
  | (.error _, _) => none

theorem spares_readyFile (name file text : String) (search : Option String) :
    Spares before (readyFile name file text search) m := by
  have listed : Sparing (searched search) := by
    cases search with
    | none => exact .pure _
    | some folder => exact ((sparing_alloc _).bind fun _ => .pure _).bind fun _ => .pure _
  refine (listed before m).bind fun search o _ => ?_
  refine spares_alloc_bind fun module o fresh => ?_
  refine (Program.sparing_ofText text file before o).bind fun p o _ => ?_
  exact (Program.spares_furnish fresh).bind fun _ _ _ => .of_still (still_pure _)

theorem sparing_moduleOf (v : Value) : Sparing (moduleOf v) := by
  cases v with
  | object ref => exact .pure ref
  | _ => exact (Sparing.of_still fun _ => still_kindOf _).bind fun kind => sparing_alloc _

theorem sparing_importNamed (name : String) : Sparing (importNamed name) := by
  unfold importNamed
  split
  · exact sparing_raiseOf _ _
  · split
    · exact sparing_raiseOf _ _
    · exact (Import.sparing_find _ name).bind sparing_moduleOf

theorem sparing_loadNamed (name : Option String) : Sparing (loadNamed name) := by
  unfold loadNamed
  cases name with
  | none => exact sparing_raiseOf _ _
  | some name =>
    refine Sparing.bind (.of_still fun _ => still_registered? name) fun found => ?_
    split
    · exact .pure _
    · exact sparing_importNamed name

/-- Loading a dependency leaves modules alone if the code of its file does: a module that is there is
found, and one that is made is not registered. -/
theorem spares_load (h : ∀ l, d.launch? m = some l → l.Spares before) : Spares before d.load m := by
  cases hm : d.module with
  | some module =>
    unfold load
    rw [hm]
    exact .of_still (still_pure module)
  | none =>
    cases hl : d.location with
    | none =>
      unfold load
      rw [hm, hl]
      exact sparing_loadNamed d.name before m
    | some location =>
      have located : d.location ≠ none := hl ▸ Option.some_ne_none location
      obtain ⟨_, file, text, there, executed, found, ran⟩ |
          ⟨-, ⟨module, ran⟩ | ⟨kind, message, ran⟩⟩ := d.run_load_cases m located
      · intro intact
        rw [ran, runFile_eq]
        refine (spares_readyFile _ file text _).bind (fun r o ready => ?_) intact
        have code : Launch.Spares before ⟨r.1, r.2, o⟩ := h _ <| by
          rw [launch?, executed, there]
          dsimp only [Option.bind_eq_bind, Option.bind_some]
          rw [found]
          dsimp only [Option.bind_some]
          rw [ready]
        exact code.bind fun _ _ _ => .of_still (still_pure r.2)
      · exact .of_still (by rw [Still, ran])
      · intro intact
        rw [ran]
        exact sparing_raiseOf kind [.text message] before m intact

end Dependency

end Stencil
