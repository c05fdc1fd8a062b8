import Stencil.Dependency
import Stencil.Proofs.Files.Spelling
import Stencil.Proofs.Script.Intact

/-!
Loading dependencies. A dependency with a location runs the code of one file or runs none, and the code
goes by the absolute path that the location leads to. A location names that file only if it is spelled
as normal forms are.
-/

namespace Stencil

open Script Run

theorem Script.Import.run_registered? (name : String) (m : Machine) :
    (Import.registered? name).run m = (.ok (m.modules.get? name), m) := by
  rw [Import.registered?, run_bind, run_get]
  rfl

namespace Dependency

def fileAt (files : Files) (location : String) : String :=
  if files.isFolder (Path.normal location) then
    Path.normal (Path.join (Path.normal location) packageFile)
  else Path.normal location

def searchAt (files : Files) (location : String) : Option String :=
  if files.isFolder (Path.normal location) then some (Path.normal location) else none

def nameAt (d : Dependency) (path : String) : String :=
  match d.name with
  | some n => if n == "" then nameForFile path else n
  | none => nameForFile path

/-- The file whose code is run when a dependency is loaded, by the name that the code goes by. -/
def executed? (d : Dependency) (m : Machine) : Option String :=
  match d.module, d.location with
  | none, some location =>
    let path := fileAt m.files location
    let existing := ((existing? (d.nameAt path) path).run m).1.toOption
    if m.files.isFile path && existing.any Option.isNone && path.endsWith ".py" then
      some (Path.join m.files.working path)
    else none
  | _, _ => none

theorem run_spelledPath? (v : Value) (m : Machine) :
    (∃ file, (spelledPath? v).run m = (.ok file, m)) ∨
      ∃ kind message, (spelledPath? v).run m = (raise kind message).run m := by
  obtain ⟨kind, named⟩ := run_kindOf v m
  unfold spelledPath?
  rw [run_bind, run_get]
  dsimp only
  split
  · exact .inl ⟨_, rfl⟩
  · split
    · split
      · exact .inr ⟨_, _, rfl⟩
      · exact .inl ⟨_, rfl⟩
    · exact .inr ⟨_, _, rfl⟩
    · rw [run_bind, named]
      exact .inr ⟨_, _, rfl⟩

theorem run_existing? (name path : String) (m : Machine) :
    (∃ found, (existing? name path).run m = (.ok found, m)) ∨
      ∃ kind message, (existing? name path).run m = (raise kind message).run m := by
  unfold existing?
  rw [run_bind, Import.run_registered?]
  dsimp only
  split
  · rw [run_bind, run_get]
    dsimp only
    split
    · next v _ =>
      obtain ⟨file, ran⟩ | ⟨kind, message, ran⟩ := run_spelledPath? v m
      · rw [run_bind, ran]
        cases file with
        | some file =>
          dsimp only
          rw [run_bind, run_get]
          exact .inl ⟨_, rfl⟩
        | none => exact .inl ⟨_, rfl⟩
      · rw [run_bind, ran]
        exact .inr ⟨kind, message, rfl⟩
    · exact .inl ⟨_, rfl⟩
  · exact .inl ⟨_, rfl⟩

theorem of_executed? {d : Dependency} {m : Machine} {file : String}
    (h : d.executed? m = some file) :
    ∃ location, d.location = some location ∧
      file = Path.join m.files.working (fileAt m.files location) := by
  unfold executed? at h
  split at h
  · next location _ hl =>
    dsimp only at h
    split at h
    · exact ⟨location, hl, (Option.some.inj h).symm⟩
    · cases h
  · cases h

/-- Loading a location: what is found there, and whether it is registered, decides what is done. -/
theorem run_load {d : Dependency} {m : Machine} {location : String} (hm : d.module = none)
    (hl : d.location = some location) :
    d.load.run m = match m.files.text? (fileAt m.files location) with
      | none => (raise "FileNotFoundError"
          ("Metadata file '" ++ location ++ "' could not be found")).run m
      | some text =>
        (existing? (d.nameAt (fileAt m.files location)) (fileAt m.files location) >>= fun
          | some module => pure module
          | none =>
            if (fileAt m.files location).endsWith ".py" then
              runFile (d.nameAt (fileAt m.files location))
                (Path.join m.files.working (fileAt m.files location)) text
                (searchAt m.files location)
            else raise "ImportError" (refusal location (fileAt m.files location)
              (d.nameAt (fileAt m.files location)) text)).run m := by
  unfold load
  rw [hm, hl]
  dsimp only
  unfold loadFile
  rw [run_bind, run_get]
  dsimp only [Machine.quiet]
  rw [← fileAt]
  unfold nameAt
  cases m.files.text? (fileAt m.files location) with
  | none => rfl
  | some text => cases d.name <;> rfl

/-- A dependency with a location runs a file when it is loaded; else it is a module that is there
already, or loading it fails at once. -/
theorem run_load_cases (d : Dependency) (m : Machine) (located : d.location ≠ none) :
    (∃ location file text, d.location = some location ∧ d.executed? m = some file ∧
      m.files.text? (fileAt m.files location) = some text ∧
      d.load.run m = (runFile (d.nameAt (fileAt m.files location)) file text
        (searchAt m.files location)).run m) ∨
    d.executed? m = none ∧ ((∃ module, d.load.run m = (.ok module, m)) ∨
      ∃ kind message, d.load.run m = (raise kind message).run m) := by
  obtain ⟨location, hl⟩ := Option.ne_none_iff_exists'.1 located
  cases hm : d.module with
  | some module =>
    refine .inr ⟨by rw [executed?, hm], .inl ⟨module, ?_⟩⟩
    unfold load
    rw [hm]
    rfl
  | none =>
    have loads := run_load (m := m) hm hl
    have runs : d.executed? m = if m.files.isFile (fileAt m.files location) &&
        ((existing? (d.nameAt (fileAt m.files location)) (fileAt m.files location)).run m).1.toOption.any
          Option.isNone && (fileAt m.files location).endsWith ".py" then
          some (Path.join m.files.working (fileAt m.files location))
        else none := by
      rw [executed?, hm, hl]
    rw [loads, runs, Files.isFile]
    cases ht : m.files.text? (fileAt m.files location) with
    | none => exact .inr ⟨rfl, .inr ⟨_, _, rfl⟩⟩
    | some text =>
      dsimp only
      obtain ⟨found, ran⟩ | ⟨kind, message, ran⟩ :=
        run_existing? (d.nameAt (fileAt m.files location)) (fileAt m.files location) m
      · rw [run_bind, ran]
        cases found with
        | some module => exact .inr ⟨by simp [Except.toOption], .inl ⟨module, rfl⟩⟩
        | none =>
          dsimp only
          cases (fileAt m.files location).endsWith ".py" with
          | true =>
            refine .inl ⟨location, Path.join m.files.working (fileAt m.files location), text, hl,
              by simp [Except.toOption], ht, ?_⟩
            rw [if_pos rfl]
          | false =>
            rw [if_neg Bool.false_ne_true]
            exact .inr ⟨by simp, .inr ⟨_, _, rfl⟩⟩
      · rw [run_bind, ran]
        have nothing : ((raise kind message : Run (Option Nat)).run m).1.toOption = none := rfl
        exact .inr ⟨by simp [nothing], .inr ⟨kind, message, rfl⟩⟩

theorem issued_raise {α : Type} (kind message : String) (m : Machine) :
    ((raise kind message : Run α).run m).2.issued = m.issued :=
  List.append_nil m.issued

theorem issued_load {d : Dependency} {m : Machine} (located : d.location ≠ none)
    (idle : d.executed? m = none) : (d.load.run m).2.issued = m.issued := by
  obtain ⟨_, _, _, -, executed, -⟩ | ⟨-, ⟨module, ran⟩ | ⟨kind, message, ran⟩⟩ :=
    d.run_load_cases m located
  · rw [executed] at idle
    cases idle
  · rw [ran]
  · rw [ran]
    exact issued_raise kind message m

theorem run_load_of_executed {d : Dependency} {m : Machine} {file : String}
    (h : d.executed? m = some file) :
    ∃ name text search, d.load.run m = (runFile name file text search).run m := by
  obtain ⟨location, hl, -⟩ := of_executed? h
  have located : d.location ≠ none := hl ▸ Option.some_ne_none location
  obtain ⟨_, other, text, -, same, -, ran⟩ | ⟨nothing, -⟩ := d.run_load_cases m located
  · rw [Option.some.inj (h.symm.trans same)]
    exact ⟨_, text, _, ran⟩
  · rw [nothing] at h
    cases h

/-- The names of files that a dependency is known by: what its location spells, and the package file
in it. -/
def spelled (d : Dependency) : List String :=
  match d.location with
  | none | some "" => []
  | some location => [location, Path.join location packageFile]

/-- A location is spelled as normal forms are: absolute, and without anything that changes nothing.
A folder may have a slash at its end. -/
def WellSpelled (files : Files) (location : String) : Prop :=
  Path.isAbsolute location = true ∧ (location = Path.normal location ∨
    files.isFolder (Path.normal location) = true ∧ location = Path.normal location ++ "/")

theorem plain_packageFile : Path.Plain packageFile := by decide +kernel

theorem mem_spelled {d : Dependency} {location : String} (hl : d.location = some location)
    (file : String) :
    file ∈ d.spelled ↔ location ≠ "" ∧ (file = location ∨ file = Path.join location packageFile) := by
  unfold spelled
  rw [hl]
  split
  · next nowhere => cases nowhere
  · next empty =>
    cases empty
    simp
  · next l filled same =>
    cases same
    rw [List.mem_cons, List.mem_singleton]
    exact ⟨fun names => ⟨filled, names⟩, fun names => names.2⟩

theorem names_iff_of_absolute {files : Files} {location : String}
    (h : Path.isAbsolute location = true) :
    (Path.join files.working (fileAt files location) = location ∨
      Path.join files.working (fileAt files location) = Path.join location packageFile) ↔
      location = Path.normal location ∨
        files.isFolder (Path.normal location) = true ∧ location = Path.normal location ++ "/" := by
  have relative := Path.isAbsolute_plain plain_packageFile
  have canonical := Path.canonical_normal h
  have longer (folder : String) : Path.segments (Path.join folder packageFile) =
      Path.segments folder ++ [packageFile] := by
    rw [Path.segments_join relative, Path.segments_of_plain plain_packageFile]
  have differs {folder path : String} (same : Path.segments folder = Path.segments path) :
      Path.join folder packageFile ≠ path := by
    intro equal
    have segments := congrArg Path.segments equal
    rw [longer, same] at segments
    simp at segments
  have normal := Path.segments_normal location
  cases hf : files.isFolder (Path.normal location) with
  | true =>
    have canonical' := canonical.join plain_packageFile
    have file : fileAt files location = Path.join (Path.normal location) packageFile := by
      rw [fileAt, if_pos hf, canonical'.normal_eq]
    rw [file, Path.join_of_absolute canonical'.absolute]
    constructor
    · rintro (same | same)
      · exact absurd same (differs normal)
      · obtain straight | slash := (Path.join_eq_join_normal h plain_packageFile).1 same.symm
        · exact .inl straight
        · exact .inr ⟨rfl, slash⟩
    · intro spelling
      refine .inr ((Path.join_eq_join_normal h plain_packageFile).2 ?_).symm
      exact spelling.imp_right And.right
  | false =>
    have file : fileAt files location = Path.normal location := by
      rw [fileAt, if_neg (by rw [hf]; exact Bool.false_ne_true)]
    rw [file, Path.join_of_absolute canonical.absolute]
    constructor
    · rintro (same | same)
      · exact .inl same.symm
      · exact absurd same.symm (differs normal.symm)
    · rintro (straight | ⟨⟨⟩, -⟩)
      exact .inl straight.symm

theorem isAbsolute_fileAt (files : Files) (location : String) :
    Path.isAbsolute (fileAt files location) = Path.isAbsolute location := by
  have relative := Path.isAbsolute_plain plain_packageFile
  unfold fileAt
  split
  · rw [Path.isAbsolute_normal, Path.isAbsolute_join relative, Path.isAbsolute_normal]
  · exact Path.isAbsolute_normal location

/-- A dependency is known by the name of the file that it runs if its location is well spelled. -/
theorem mem_spelled_iff {d : Dependency} {m : Machine} {file : String}
    (h : d.executed? m = some file) (absolute : Path.isAbsolute m.files.working = true) :
    file ∈ d.spelled ↔ ∃ location, d.location = some location ∧ WellSpelled m.files location := by
  have relative := Path.isAbsolute_plain plain_packageFile
  obtain ⟨location, hl, he⟩ := of_executed? h
  rw [mem_spelled hl, he]
  constructor
  · rintro ⟨-, names⟩
    refine ⟨location, hl, ?_⟩
    cases ha : Path.isAbsolute location with
    | true => exact ⟨ha, (names_iff_of_absolute ha).1 names⟩
    | false =>
      -- the working folder makes the name absolute, and no spelling of a relative location is
      have file : Path.isAbsolute (Path.join m.files.working (fileAt m.files location)) = true := by
        rw [Path.isAbsolute_join (by rw [isAbsolute_fileAt, ha]), absolute]
      obtain same | same := names <;> rw [same] at file
      · rw [ha] at file
        cases file
      · rw [Path.isAbsolute_join relative, ha] at file
        cases file
  · rintro ⟨other, ho, ha, spelling⟩
    obtain rfl : location = other := Option.some.inj (hl.symm.trans ho)
    refine ⟨?_, (names_iff_of_absolute ha).2 spelling⟩
    rintro rfl
    cases ha

end Dependency

end Stencil
