import Stencil.Proofs.Emission.Identity

/-!
Loading by location. What a location leads to gives the module its name, and a module that is registered
under that name is taken only if it says that it is from the same file. Otherwise the file is executed
once, in a new module that is not registered (`load_located`).
-/

namespace Stencil

open Script Run

namespace Files

theorem place?_congr {f : Files} {path other : String}
    (absolute : Path.isAbsolute path = Path.isAbsolute other)
    (same : Path.segments path = Path.segments other) : f.place? path = f.place? other := by
  rw [place?, place?, Path.segments_join_congr absolute same]

theorem place?_normal (f : Files) (path : String) : f.place? (Path.normal path) = f.place? path :=
  place?_congr (Path.isAbsolute_normal path) (Path.segments_normal path)

theorem isFolder_normal (f : Files) (path : String) :
    f.isFolder (Path.normal path) = f.isFolder path := by
  rw [isFolder, isFolder, place?_normal]

theorem isFile_normal (f : Files) (path : String) : f.isFile (Path.normal path) = f.isFile path := by
  rw [isFile, isFile, text?, text?, place?_normal]

end Files

namespace Dependency

section location

variable (files : Files) (location : String)

def Leads : Prop :=
  (if files.isFolder location then files.isFile (Path.join location packageFile)
    else files.isFile location) = true

instance : Decidable (Leads files location) := inferInstanceAs (Decidable (_ = true))

theorem isFile_fileAt : files.isFile (fileAt files location) = true ↔ Leads files location := by
  have relative := Path.isAbsolute_plain plain_packageFile
  unfold fileAt Leads
  rw [Files.isFolder_normal]
  split
  · have inside : files.isFile (Path.join (Path.normal location) packageFile) =
        files.isFile (Path.join location packageFile) := by
      unfold Files.isFile Files.text?
      rw [Files.place?_congr]
      · rw [Path.isAbsolute_join relative, Path.isAbsolute_join relative, Path.isAbsolute_normal]
      · rw [Path.segments_join relative, Path.segments_join relative, Path.segments_normal]
    rw [Files.isFile_normal, inside]
  · rw [Files.isFile_normal]

/-- The name that a location gives a module: that of the folder of a package, or the stem of a file. -/
def nameFrom : String :=
  if files.isFolder location then Path.name location
  else if Path.name location = packageFile then Path.name (Path.parent location)
  else Path.stem location

theorem nameForFile_fileAt : nameForFile (fileAt files location) = nameFrom files location := by
  have relative := Path.isAbsolute_plain plain_packageFile
  unfold fileAt nameFrom
  rw [Files.isFolder_normal]
  split
  · have segments : Path.segments (Path.normal (Path.join (Path.normal location) packageFile)) =
        Path.segments location ++ [packageFile] := by
      rw [Path.segments_normal, Path.segments_join relative, Path.segments_normal,
        Path.segments_of_plain plain_packageFile]
    have last : Path.name (Path.normal (Path.join (Path.normal location) packageFile)) =
        packageFile := by
      rw [Path.name, segments, List.getLast?_concat, Option.getD_some]
    rw [nameForFile, last, beq_self_eq_true, if_pos rfl, Path.name, Path.segments_parent, segments,
      List.dropLast_concat, Path.name]
  · rw [nameForFile, Path.name_normal, Path.name_parent_normal, Path.stem_normal]
    simp only [beq_iff_eq]

end location

section reuse

variable {m : Machine} {v : Value} {name path file : String} {ref : Nat}

def Spells (v : Value) (file : String) : Prop :=
  v = .text file ∧ file ≠ "" ∧ (file.toList.any fun c => c.toNat == 0) = false

/-- The module that is registered under a name says that it is from the file of a path. -/
def Reuses (m : Machine) (name path : String) (ref : Nat) : Prop :=
  m.modules.get? name = some (.object ref) ∧ ∃ v file, (m.attributes ref).get? "__file__" = some v ∧
    Spells v file ∧ placeOf m.files.working file = placeOf m.files.working path

def Comparable (m : Machine) (name : String) : Prop :=
  ∀ ref v, m.modules.get? name = some (.object ref) → (m.attributes ref).get? "__file__" = some v →
    isHollow m v = true ∨ ∃ file, Spells v file

theorem isHollow_quiet (m : Machine) (v : Value) : isHollow m.quiet v = isHollow m v := by
  cases v <;> rfl

theorem run_spelledPath?_of_hollow (h : isHollow m v = true) :
    (spelledPath? v).run m = (.ok none, m) := by
  unfold spelledPath?
  rw [run_bind, run_get]
  dsimp only
  rw [isHollow_quiet, h, if_pos rfl]
  rfl

theorem run_spelledPath?_of_spells (h : Spells v file) :
    (spelledPath? v).run m = (.ok (some file), m) := by
  obtain ⟨rfl, filled, clean⟩ := h
  have told : isHollow m (.text file) = false := by simp [isHollow, filled]
  unfold spelledPath?
  rw [run_bind, run_get]
  dsimp only
  rw [isHollow_quiet, told, if_neg Bool.false_ne_true, clean]
  rfl

/-- What says something and spells no file is refused, and with a type error if it is no text. -/
theorem run_spelledPath?_of_not_spells (filled : isHollow m v = false)
    (other : ∀ file, ¬Spells v file) :
    ∃ kind message, (spelledPath? v).run m = (raise kind message).run m ∧
      ((∀ s, v ≠ .text s) → kind = "TypeError") := by
  obtain ⟨kind, named⟩ := run_kindOf v m
  unfold spelledPath?
  rw [run_bind, run_get]
  dsimp only
  rw [isHollow_quiet, filled, if_neg Bool.false_ne_true]
  split
  · next s =>
    have dirty : (s.toList.any fun c => c.toNat == 0) = true := by
      refine Bool.of_not_eq_false fun clean => other s ⟨rfl, ?_, clean⟩
      rintro rfl
      cases filled
    rw [if_pos dirty]
    exact ⟨_, _, rfl, fun text => absurd rfl (text s)⟩
  · exact ⟨_, _, rfl, fun _ => rfl⟩
  · rw [run_bind, named]
    exact ⟨_, _, rfl, fun _ => rfl⟩

def comparing (path : String) (ref : Nat) : Option String → Run (Option Nat)
  | some file => do
    let working := (← get).files.working
    return if placeOf working file == placeOf working path then some ref else none
  | none => return none

theorem run_comparing (file : String) :
    (comparing path ref (some file)).run m =
      (.ok (if placeOf m.files.working file == placeOf m.files.working path then some ref else none),
        m) := by
  rw [comparing, run_bind, run_get]
  rfl

theorem run_existing?_object (registered : m.modules.get? name = some (.object ref)) :
    (existing? name path).run m =
      match (m.attributes ref).get? "__file__" with
      | some v => (spelledPath? v >>= comparing path ref).run m
      | none => (.ok none, m) := by
  rw [existing?, run_bind, Import.run_registered?, registered]
  dsimp only
  rw [run_bind, run_get]
  dsimp only
  rw [show m.quiet.attributes ref = m.attributes ref from rfl]
  cases (m.attributes ref).get? "__file__" with
  | some v =>
    refine congrArg (Run.run · m) (bind_congr fun file => ?_)
    cases file <;> rfl
  | none => rfl

theorem run_existing?_registered (registered : m.modules.get? name = some (.object ref))
    (told : (m.attributes ref).get? "__file__" = some v) :
    (existing? name path).run m = (spelledPath? v >>= comparing path ref).run m := by
  rw [run_existing?_object registered, told]

theorem run_existing?_of_reuses (h : Reuses m name path ref) :
    (existing? name path).run m = (.ok (some ref), m) := by
  obtain ⟨registered, v, file, told, spells, same⟩ := h
  rw [run_existing?_registered registered told, run_bind, run_spelledPath?_of_spells spells]
  dsimp only
  rw [run_comparing, same, beq_self_eq_true, if_pos rfl]

theorem run_existing?_of_not_spells (path : String)
    (registered : m.modules.get? name = some (.object ref))
    (told : (m.attributes ref).get? "__file__" = some v) (filled : isHollow m v = false)
    (other : ∀ file, ¬Spells v file) :
    ∃ kind message, (existing? name path).run m = (raise kind message).run m ∧
      ((∀ s, v ≠ .text s) → kind = "TypeError") := by
  obtain ⟨kind, message, ran, kinds⟩ := run_spelledPath?_of_not_spells filled other
  rw [run_existing?_registered registered told, run_bind, ran]
  exact ⟨kind, message, rfl, kinds⟩

theorem run_existing?_of_comparable (comparable : Comparable m name)
    (other : ∀ ref, ¬Reuses m name path ref) : (existing? name path).run m = (.ok none, m) := by
  cases registered : m.modules.get? name with
  | none =>
    rw [existing?, run_bind, Import.run_registered?, registered]
    rfl
  | some entry =>
    cases entry with
    | object ref =>
      cases told : (m.attributes ref).get? "__file__" with
      | none => rw [run_existing?_object registered, told]
      | some v =>
        rw [run_existing?_registered registered told, run_bind]
        obtain hollow | ⟨file, spells⟩ := comparable ref v registered told
        · rw [run_spelledPath?_of_hollow hollow]
          rfl
        · have differs : placeOf m.files.working file ≠ placeOf m.files.working path := fun same =>
            other ref ⟨registered, v, file, told, spells, same⟩
          rw [run_spelledPath?_of_spells spells]
          dsimp only
          rw [run_comparing, beq_eq_false_iff_ne.2 differs]
          rfl
    | _ =>
      rw [existing?, run_bind, Import.run_registered?, registered]
      rfl

end reuse

section ready

variable (name file text : String) (search : Option String) (m : Machine)

theorem get?_fileAttributes (search : Option Value) :
    (fileAttributes name file search).get? "__name__" = some (.text name) ∧
      (fileAttributes name file search).get? "__file__" = some (.text file) := by
  cases search <;> simp [fileAttributes, Machine.withValue] <;> rfl

theorem run_readyFile_cases :
    (∃ o s n, (Program.ofText text file).run o = (.error s, n) ∧
      (readyFile name file text search).run m = (.error s, n)) ∨
    ∃ o n p module l, (Program.ofText text file).run o = (.ok p, n) ∧
      (readyFile name file text search).run m = (.ok (p, module), l) ∧ m.heap.size ≤ module ∧
      Emission.Identified l module name file := by
  obtain ⟨found, m₁, sought⟩ : ∃ found m₁, (searched search).run m = (.ok found, m₁) := by
    cases search <;> exact ⟨_, _, rfl⟩
  have grown : m.heap.size ≤ m₁.heap.size := by
    have grows := (searched search).grows m
    rwa [sought] at grows
  let made := ((alloc (.module (fileAttributes name file found))).run m₁).2
  have allocated : (alloc (.module (fileAttributes name file found))).run m₁ =
      (.ok m₁.heap.size, made) := rfl
  have there : made.heap[m₁.heap.size]? = some (.module (fileAttributes name file found)) :=
    Array.getElem?_push_size
  unfold readyFile
  rw [run_bind, sought]
  dsimp only
  rw [run_bind, allocated]
  dsimp only
  rcases read : (Program.ofText text file).run made with ⟨s | p, n⟩
  · refine .inl ⟨made, s, n, read, ?_⟩
    rw [run_bind, read]
  · have kept : n.heap[m₁.heap.size]? = some (.module (fileAttributes name file found)) :=
      (Program.sparing_ofText text file made made).attributes read there
    obtain ⟨named, filed⟩ := get?_fileAttributes name file found
    obtain ⟨l, furnished, ownName⟩ := Emission.Stands.run_furnish ⟨_, kept, named⟩ (by decide)
    obtain ⟨l', furnished', ownFile⟩ := Emission.Stands.run_furnish ⟨_, kept, filed⟩ (by decide)
    obtain rfl : l = l' := congrArg Prod.snd (furnished.symm.trans furnished')
    refine .inr ⟨made, n, p, m₁.heap.size, l, read, ?_, grown, ownName, ownFile⟩
    rw [run_bind, read]
    dsimp only
    rw [run_bind, furnished]
    rfl

end ready

def nameOn (d : Dependency) (location : String) (m : Machine) : String :=
  d.nameAt (fileAt m.files location)

def codeOn (location : String) (m : Machine) : String :=
  Path.join m.files.working (fileAt m.files location)

def Registered (d : Dependency) (location : String) (m : Machine) (ref : Nat) : Prop :=
  Reuses m (d.nameOn location m) (fileAt m.files location) ref

def Sound (m : Machine) : Prop := ∀ key ref, m.modules.get? key = some (.object ref) → ref < m.heap.size

/-- A file is executed: it is read for a new module, which is not registered, and then its code is run
once. -/
inductive Executed (d : Dependency) (location : String) (m : Machine) : Prop
  /-- Only one kind of files has a loader. -/
  | unhandled {text : String} (found : m.files.text? (fileAt m.files location) = some text)
      (other : (fileAt m.files location).endsWith ".py" = false)
      (ran : d.load.run m = (raise "ImportError" (refusal location (fileAt m.files location)
        (d.nameOn location m) text)).run m)
  /-- There is an error in the text, and nothing of it is run. -/
  | unreadable {text : String} {s : Stop} {o n : Machine}
      (found : m.files.text? (fileAt m.files location) = some text)
      (refused : (Program.ofText text (codeOn location m)).run o = (.error s, n))
      (ready : ((readyFile (d.nameOn location m) (codeOn location m) text
        (searchAt m.files location)).run m).1 = .error s)
      (idle : d.launch? m = none) (ran : d.load.run m = (.error s, n))
  | launched {text : String} {l : Launch} {o n : Machine}
      (found : m.files.text? (fileAt m.files location) = some text)
      (read : (Program.ofText text (codeOn location m)).run o = (.ok l.program, n))
      (launch : d.launch? m = some l) (fresh : m.heap.size ≤ l.module)
      (identified : Emission.Identified l.machine l.module (d.nameOn location m) (codeOn location m))
      (intact : Intact m l.machine)
      (unlisted : Sound m → ∀ key, l.machine.modules.get? key ≠ some (.object l.module))
      (ran : d.load.run m = (l.program.perform l.module >>= fun _ => pure l.module).run l.machine)

structure Located (d : Dependency) (location : String) (m : Machine) : Prop where
  named : d.nameOn location m = (d.name.filter (· != "")).getD (nameFrom m.files location)
  missing : ¬Leads m.files location → d.load.run m =
    (raise "FileNotFoundError" ("Metadata file '" ++ location ++ "' could not be found")).run m
  reuses : Leads m.files location → ∀ ref, d.Registered location m ref → d.load.run m = (.ok ref, m)
  /-- No other module of the table is handed over. -/
  only : Sound m → ∀ ref n, m.modules.get? (d.nameOn location m) = some (.object ref) →
    d.load.run m = (.ok ref, n) → d.Registered location m ref
  executes : Leads m.files location → Comparable m (d.nameOn location m) →
    (∀ ref, ¬d.Registered location m ref) → d.Executed location m
  /-- What a registered module says of its file is refused if it is no text. -/
  refuses : Leads m.files location → ∀ ref v,
    m.modules.get? (d.nameOn location m) = some (.object ref) →
    (m.attributes ref).get? "__file__" = some v → isHollow m v = false → (∀ s, v ≠ .text s) →
      ∃ message, d.load.run m = (raise "TypeError" message).run m
  /-- Only the code of the file can write to the table of modules or to a module in it. -/
  table : d.launch? m = none → Intact m (d.load.run m).2
  twice : (∀ ref, ¬d.Registered location m ref) → ∀ ref n, d.load.run m = (.ok ref, n) →
    (∀ ref, ¬d.Registered location n ref) → ∀ ref' n', d.load.run n = (.ok ref', n') → ref ≠ ref'

section launch

variable {d : Dependency} {location text : String} {m o : Machine}
  (hl : d.location = some location) (runs : d.executed? m = some (codeOn location m))
  (found : m.files.text? (fileAt m.files location) = some text)

include hl runs found

theorem launch?_of_error {s : Stop} (ready : (readyFile (d.nameOn location m) (codeOn location m) text
    (searchAt m.files location)).run m = (.error s, o)) : d.launch? m = none := by
  rw [launch?, runs, hl]
  dsimp only [Option.bind_eq_bind, Option.bind_some]
  rw [found]
  dsimp only [Option.bind_some]
  rw [← nameOn, ready]

theorem launch?_of_ready {p : Program} {module : Nat}
    (ready : (readyFile (d.nameOn location m) (codeOn location m) text
      (searchAt m.files location)).run m = (.ok (p, module), o)) :
    d.launch? m = some ⟨p, module, o⟩ := by
  rw [launch?, runs, hl]
  dsimp only [Option.bind_eq_bind, Option.bind_some]
  rw [found]
  dsimp only [Option.bind_some]
  rw [← nameOn, ready]

end launch

section law

variable {d : Dependency} {location : String} {m n : Machine} {ref : Nat}

/-- What is done with a file that is found: its registered module is handed over, or it is run. -/
def loadFound (d : Dependency) (location : String) (m : Machine) (text : String) : Run Nat := do
  match ← existing? (d.nameOn location m) (fileAt m.files location) with
  | some module => return module
  | none =>
    if (fileAt m.files location).endsWith ".py" then
      runFile (d.nameOn location m) (codeOn location m) text (searchAt m.files location)
    else raise "ImportError" (refusal location (fileAt m.files location) (d.nameOn location m) text)

variable (hm : d.module = none) (hl : d.location = some location)

include hm hl

theorem run_load_missing (missing : ¬Leads m.files location) :
    d.load.run m =
      (raise "FileNotFoundError" ("Metadata file '" ++ location ++ "' could not be found")).run m := by
  have nothing : m.files.text? (fileAt m.files location) = none := by
    rw [← isFile_fileAt, Files.isFile] at missing
    simpa using missing
  rw [run_load hm hl, nothing]

theorem run_load_found (leads : Leads m.files location) :
    ∃ text, m.files.text? (fileAt m.files location) = some text ∧
      d.load.run m = (d.loadFound location m text).run m := by
  rw [← isFile_fileAt, Files.isFile, Option.isSome_iff_exists] at leads
  obtain ⟨text, found⟩ := leads
  refine ⟨text, found, ?_⟩
  rw [run_load hm hl, found]
  rfl

theorem run_load_registered (leads : Leads m.files location)
    (registered : d.Registered location m ref) : d.load.run m = (.ok ref, m) := by
  obtain ⟨text, -, ran⟩ := run_load_found hm hl leads
  rw [ran, loadFound, run_bind, run_existing?_of_reuses registered]
  rfl

theorem run_load_refused {v : Value} (leads : Leads m.files location)
    (registered : m.modules.get? (d.nameOn location m) = some (.object ref))
    (told : (m.attributes ref).get? "__file__" = some v) (filled : isHollow m v = false)
    (other : ∀ file, ¬Spells v file) :
    ∃ kind message, d.load.run m = (raise kind message).run m ∧
      ((∀ s, v ≠ .text s) → kind = "TypeError") := by
  obtain ⟨text, -, ran⟩ := run_load_found hm hl leads
  obtain ⟨kind, message, refused, kinds⟩ :=
    run_existing?_of_not_spells (fileAt m.files location) registered told filled other
  refine ⟨kind, message, ?_, kinds⟩
  rw [ran, loadFound, run_bind, refused]
  rfl

theorem executed_of_unregistered (leads : Leads m.files location)
    (comparable : Comparable m (d.nameOn location m)) (other : ∀ ref, ¬d.Registered location m ref) :
    d.Executed location m := by
  obtain ⟨text, found, ran⟩ := run_load_found hm hl leads
  have unknown := run_existing?_of_comparable comparable other
  have goes : d.load.run m = (if (fileAt m.files location).endsWith ".py" then
      runFile (d.nameOn location m) (codeOn location m) text (searchAt m.files location)
    else raise "ImportError"
      (refusal location (fileAt m.files location) (d.nameOn location m) text)).run m := by
    rw [ran, loadFound, run_bind, unknown]
  cases kind : (fileAt m.files location).endsWith ".py" with
  | false =>
    rw [kind, if_neg Bool.false_ne_true] at goes
    exact .unhandled found kind goes
  | true =>
    rw [kind, if_pos rfl, runFile_eq, run_bind] at goes
    have runs : d.executed? m = some (codeOn location m) := by
      rw [executed?, hm, hl]
      dsimp only
      rw [Files.isFile, found, show (existing? (d.nameAt (fileAt m.files location))
        (fileAt m.files location)).run m = _ from unknown, kind]
      rfl
    have kept := spares_readyFile (d.nameOn location m) (codeOn location m) text
      (searchAt m.files location) (.refl m)
    obtain ⟨o, s, n, refused, ready⟩ | ⟨o, n, p, module, l, read, ready, fresh, identified⟩ :=
      run_readyFile_cases (d.nameOn location m) (codeOn location m) text (searchAt m.files location) m
    · rw [ready] at goes
      exact .unreadable found refused (by rw [ready]) (launch?_of_error hl runs found ready) goes
    · rw [ready] at goes kept
      refine .launched found read (launch?_of_ready hl runs found ready) fresh identified kept
        (fun sound key there => ?_) goes
      rw [kept.modules] at there
      exact absurd (sound key module there) (Nat.not_lt.2 fresh)

theorem fresh_of_load (other : ∀ ref, ¬d.Registered location m ref)
    (ran : d.load.run m = (.ok ref, n)) : m.heap.size ≤ ref ∧ ref < n.heap.size := by
  have fails {kind message : String} (h : d.load.run m = (raise kind message).run m) : False := by
    rw [ran] at h
    cases h
  by_cases leads : Leads m.files location
  · by_cases comparable : Comparable m (d.nameOn location m)
    · cases executed_of_unregistered hm hl leads comparable other with
      | unhandled _ _ raised => exact (fails raised).elim
      | unreadable _ _ _ _ failed =>
        rw [ran] at failed
        cases failed
      | @launched _ l _ _ _ _ _ fresh identified _ _ goes =>
        rw [ran] at goes
        obtain ⟨_, o, performed, last⟩ := of_run_bind goes.symm
        cases last
        obtain ⟨attrs, found, -⟩ := identified.name
        have grown := (l.program.perform l.module).grows l.machine
        rw [performed] at grown
        exact ⟨fresh, (Array.getElem?_eq_some_iff.1 found).1.trans_le grown⟩
    · unfold Comparable at comparable
      push Not at comparable
      obtain ⟨k, v, registered, told, filled, spelled⟩ := comparable
      obtain ⟨kind, message, raised, -⟩ := run_load_refused hm hl leads registered told
        (Bool.eq_false_of_not_eq_true filled) spelled
      exact (fails raised).elim
  · exact (fails (run_load_missing hm hl leads)).elim

omit hm hl in
theorem intact_of_idle (idle : d.launch? m = none) : Intact m (d.load.run m).2 := by
  refine spares_load (fun l launched => ?_) (.refl m)
  rw [idle] at launched
  cases launched

end law

theorem nameOn_eq (d : Dependency) (location : String) (m : Machine) :
    d.nameOn location m = (d.name.filter (· != "")).getD (nameFrom m.files location) := by
  rw [nameOn, nameAt, nameForFile_fileAt]
  cases d.name with
  | none => rfl
  | some n => by_cases empty : n = "" <;> simp [Option.filter, empty]

end Dependency

end Stencil
