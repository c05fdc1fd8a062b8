import Stencil.Proofs.Emission.Loading
import Stencil.Proofs.Emission.Report
import Stencil.Proofs.Script.Stop

/-!
How an item ends an emission. An error that loading a dependency or running a body raises is reported
if it is of the right kind. Around that, a module is asked for its name and bound, a namespace is
looked for and read, and an error is put into words; nothing guards these, and what goes wrong there
is not reported.
-/

namespace Stencil.Emission

open Script Run

theorem asks_isReported : Asks isReported := by
  intro error m
  rw [isReported, run_bind, classOf, run_bind, run_object]
  dsimp only [run_pure]
  generalize objectClass (m.heap[error]?.getD (.foreign "object" "")) = c
  obtain ⟨b, ran⟩ := run_derives c (.builtin "Exception") m
  obtain ⟨b', ran'⟩ := run_derives c (.builtin "SystemExit") m
  rw [run_bind, ran]
  dsimp only
  rw [run_bind, ran']
  exact ⟨_, rfl⟩

section reporting

variable {α : Type} {code : Run α} {m : Machine} {s : Stop}

theorem reporting_eq (code : Run α) :
    reporting code = guarding isReported Except.ok Except.error id code := by
  rw [reporting, guarding]
  congr 1
  funext stop
  cases stop <;> rfl

theorem stops_reporting_bind {β : Type} {f : Except Nat α → Run β} :
    (reporting code >>= f).Stops m s ↔
      Strays isReported code m s ∨
      (∃ error o, Caught isReported code m error o ∧ (f (.error error)).Stops o s) ∨
      ∃ a o, code.run m = (.ok a, o) ∧ (f (.ok a)).Stops o s := by
  rw [reporting_eq, stops_bind, asks_isReported.stops_guarding]
  constructor
  · rintro (⟨_, stray, rfl⟩ | ⟨_, o, ran, later⟩)
    · exact .inl stray
    · obtain ⟨a, ran', rfl⟩ | ⟨error, caught, rfl⟩ := asks_isReported.run_guarding ran
      · exact .inr (.inr ⟨a, o, ran', later⟩)
      · exact .inr (.inl ⟨error, o, caught, later⟩)
  · rintro (stray | ⟨error, o, caught, later⟩ | ⟨a, o, ran, later⟩)
    · exact .inl ⟨s, stray, rfl⟩
    · exact .inr ⟨_, o, run_guarding_of_caught caught, later⟩
    · exact .inr ⟨_, o, run_guarding_of_ok ran, later⟩

end reporting

theorem returns_moduleOf (v : Value) : Returns (Dependency.moduleOf v) := by
  cases v with
  | object ref => exact .pure ref
  | _ => exact (returns_kindOf _).bind fun kind => returns_alloc _

inductive Unbound (module : Nat) (m : Machine) (s : Stop) : Prop
  | nameless (h : (Dependency.nameOf module).Stops m s)
  /-- The module is registered, and the package at the top of its name is not: the error is about
  that key of the table of modules. -/
  | topless {name : String} {o : Machine} (named : (Dependency.nameOf module).run m = (.ok name, o))
      (registered : o.modules.get? name = some (.object module))
      (missing : o.modules.get? (Event.topName name) = none)
      (raised : (raiseOf "KeyError" [.text (Event.topName name)] : Run Unit).Stops o s)

theorem stops_binding {module : Nat} {m : Machine} {s : Stop} :
    (Dependency.binding module).Stops m s ↔ Unbound module m s := by
  constructor
  · intro h
    rw [Dependency.binding, stops_bind] at h
    obtain h | ⟨name, o, named, h⟩ := h
    · exact .nameless h
    rw [stops_bind_ok (Import.run_registered? name o)] at h
    split at h
    · next ref registered =>
      split at h
      · next same =>
        rw [stops_bind_ok (Import.run_registered? _ o)] at h
        rw [same] at registered
        split at h
        · exact absurd h ((returns_moduleOf _).bind fun _ => .pure _).not_stops
        · next missing => exact .topless named registered missing (stops_raiseOf.2 (stops_raiseOf.1 h))
      · exact absurd h (Returns.pure _).not_stops
    · exact absurd h (Returns.pure _).not_stops
  · rintro (h | ⟨named, registered, missing, raised⟩)
    · exact stops_bind.2 (.inl h)
    · rw [Dependency.binding, stops_bind_ok named, stops_bind_ok (Import.run_registered? _ _), registered]
      dsimp only
      rw [if_pos rfl, stops_bind_ok (Import.run_registered? _ _), missing]
      exact stops_raiseOf.2 (stops_raiseOf.1 raised)

inductive Unsought (name : String) (loaded : List Nat) (m : Machine) (s : Stop) : Prop
  /-- A module that was loaded does not say what it is called. -/
  | nameless (h : (named? name loaded).Stops m s)
  | topless {n : Machine} (unnamed : (named? name loaded).run m = (.ok none, n))
      (h : (sharesTop (Event.topName name) loaded).Stops n s)
  /-- The import ends with something else than an error of importing. -/
  | unimported {n o : Machine} {s' : Stop} (unnamed : (named? name loaded).run m = (.ok none, n))
      (related : (sharesTop (Event.topName name) loaded).run n = (.ok true, o))
      (h : Strays (fun error => isA (.object error) (.builtin "ImportError"))
        (Dependency.importNamed name) o s')
      (left : s = s'.afresh)

def importing (name : String) : Run (Option Nat) :=
  guarding (fun error => isA (.object error) (.builtin "ImportError")) some (fun _ => none)
    Stop.afresh (Dependency.importNamed name)

theorem findNamespace_eq (name : String) (loaded : List Nat) :
    findNamespace name loaded = named? name loaded >>= fun
      | some m => pure (some m)
      | none => do
        if ← sharesTop (Event.topName name) loaded then importing name else return none := by
  rw [findNamespace]
  refine bind_congr fun found => ?_
  cases found with
  | some m => rfl
  | none =>
    refine bind_congr fun related => ?_
    congr 1
    rw [importing, guarding, handling]
    congr 1
    funext stop
    cases stop with
    | exhausted => rfl
    | raised error placed => simp only [isA, bind_assoc, Stop.afresh]

theorem stops_findNamespace {name : String} {loaded : List Nat} {m : Machine} {s : Stop} :
    (findNamespace name loaded).Stops m s ↔ Unsought name loaded m s := by
  rw [findNamespace_eq]
  constructor
  · intro h
    obtain h | ⟨_ | found, n, unnamed, h⟩ := stops_bind.1 h
    · exact .nameless h
    · obtain h | ⟨related, o, shared, h⟩ := stops_bind.1 h
      · exact .topless unnamed h
      · cases related with
        | false => exact absurd h (Returns.pure _).not_stops
        | true =>
          obtain ⟨s', stray, left⟩ := (asks_isA _).stops_guarding.1 h
          exact .unimported unnamed shared stray left
    · exact absurd h (Returns.pure _).not_stops
  · rintro (h | ⟨unnamed, h⟩ | ⟨unnamed, related, stray, left⟩)
    · exact stops_bind.2 (.inl h)
    · exact (stops_bind_ok unnamed).2 (stops_bind.2 (.inl h))
    · refine (stops_bind_ok unnamed).2 ((stops_bind_ok related).2 ?_)
      exact (asks_isA _).stops_guarding.2 ⟨_, stray, left⟩

inductive Escape (a : Assembly) (module : Nat) (loaded : List Nat) (m : Machine) (s : Stop) :
    Item → Prop
  /-- Loading ends with something that is not reported. -/
  | load {d : Dependency} (h : Strays isReported d.load m s) :
      Escape a module loaded m s (.dependency d)
  /-- An error of loading cannot be put into words. -/
  | loadText {d : Dependency} {o : Machine} {error : Nat} (h : Caught isReported d.load m error o)
      (wordless : (describe error).Stops o s) : Escape a module loaded m s (.dependency d)
  | binding {d : Dependency} {o : Machine} {l : Nat} (h : d.load.run m = (.ok l, o))
      (unbound : Unbound l o s) : Escape a module loaded m s (.dependency d)
  | search {name : String} (h : Unsought name loaded m s) : Escape a module loaded m s (.usage name)
  /-- A namespace that was found does not give its names. -/
  | names {name : String} {o : Machine} {found : Nat}
      (h : (findNamespace name loaded).run m = (.ok (some found), o))
      (unlisted : (Dependency.publicNames found).Stops o s) : Escape a module loaded m s (.usage name)
  /-- There is no such level of optimisation. -/
  | level {t : Source} {tree : Tree} {o : Machine} (h : t.reading = .ok tree)
      (read : ∃ r, t.read.run m = (.ok r, o))
      (level : Program.allowsLevel a.options.optimize = false)
      (raised : (valueError "compile(): invalid optimize value" : Run Unit).Stops o s) :
      Escape a module loaded m s (.source t)
  | body {p : Program} (h : Strays isReported (p.run module) m s) :
      Escape a module loaded m s (.body p)
  /-- An error of a body cannot be put into words. -/
  | bodyText {p : Program} {o : Machine} {error : Nat} (h : Caught isReported (p.run module) m error o)
      (wordless : (describe error).Stops o s) : Escape a module loaded m s (.body p)

theorem Writes.returns {code : Run Unit} (h : Writes code) : Returns code := by
  intro m
  obtain ⟨heap, ran⟩ := h m
  exact ⟨(), _, ran⟩

theorem writes_takeIn (module : Nat) (entries : List (String × Value)) :
    Writes (takeIn module entries) := by
  induction entries with
  | nil => exact .pure
  | cons entry rest ih => exact (writes_putAttribute module entry.1 entry.2).bind ih

theorem run_traceOf (error : Nat) (m : Machine) : ∃ trace, (traceOf error).run m = (.ok trace, m) := by
  rw [traceOf, run_bind, run_object]
  cases m.heap[error]?.getD (.foreign "object" "") <;> exact ⟨_, rfl⟩

theorem returns_issueAll (category file : String) (issues : List (Nat × String)) :
    Returns (Program.issueAll category file issues) := by
  induction issues with
  | nil => exact .pure ()
  | cons issue rest ih => exact Returns.bind (fun _ => ⟨_, _, rfl⟩) fun _ => ih

theorem returns_read (t : Source) : Returns t.read := by
  refine Returns.bind (fun m => ⟨_, m, run_get m⟩) fun m => ?_
  split
  · exact .pure _
  · refine Returns.bind (fun _ => ⟨_, _, rfl⟩) fun _ => Returns.bind ?_ fun _ => .pure _
    exact (returns_issueAll _ _ _).bind fun _ => .pure _

section step

variable {a : Assembly} {module : Nat} {loaded : List Nat} {m : Machine} {s : Stop}

theorem stops_bindOne {d : Dependency} :
    (bindOne module d).Stops m s ↔ Escape a module loaded m s (.dependency d) := by
  have put (l : Nat) (bound : String × Nat) :
      Returns (putAttribute module bound.1 (.object bound.2) >>= fun _ =>
        (pure (.ok l) : Run (Except Diagnostic Nat))) :=
    (writes_putAttribute module bound.1 (.object bound.2)).returns.bind fun _ => .pure _
  rw [bindOne, stops_reporting_bind]
  constructor
  · rintro (stray | ⟨error, o, caught, h⟩ | ⟨l, o, ran, h⟩)
    · exact .load stray
    · exact .loadText caught ((Returns.stops_bind_iff fun _ => .pure _).1 h)
    · exact .binding ran (stops_binding.1 ((Returns.stops_bind_iff (put l)).1 h))
  · intro escape
    cases escape with
    | load stray => exact .inl stray
    | loadText caught wordless =>
      exact .inr (.inl ⟨_, _, caught, (Returns.stops_bind_iff fun _ => .pure _).2 wordless⟩)
    | binding ran unbound =>
      exact .inr (.inr ⟨_, _, ran, (Returns.stops_bind_iff (put _)).2 (stops_binding.2 unbound)⟩)

theorem stops_useOne {name : String} :
    (useOne module loaded name).Stops m s ↔ Escape a module loaded m s (.usage name) := by
  have take (names : Bindings Value) :
      Returns (takeIn module names.entries >>= fun _ =>
        (pure (.ok ()) : Run (Except Diagnostic Unit))) :=
    (writes_takeIn module names.entries).returns.bind fun _ => .pure _
  rw [useOne, stops_bind]
  constructor
  · rintro (h | ⟨_ | found, o, ran, h⟩)
    · exact .search (stops_findNamespace.1 h)
    · exact absurd h (Returns.pure _).not_stops
    · exact .names ran ((Returns.stops_bind_iff take).1 h)
  · intro escape
    cases escape with
    | search unsought => exact .inl (stops_findNamespace.2 unsought)
    | names ran unlisted => exact .inr ⟨_, _, ran, (Returns.stops_bind_iff take).2 unlisted⟩

theorem stops_ofTree {t : Tree} {file : String} {level : Int} :
    (Program.ofTree t file level).Stops m s ↔ Program.allowsLevel level = false ∧
      (valueError "compile(): invalid optimize value" : Run Unit).Stops m s := by
  unfold Program.ofTree
  cases Program.allowsLevel level with
  | true =>
    refine iff_of_false (Returns.not_stops ?_) (by simp)
    refine (returns_issueAll _ _ _).bind fun _ => ?_
    split <;> exact .pure _
  | false =>
    rw [and_iff_right rfl]
    exact stops_raiseOf.trans stops_raiseOf.symm

theorem stops_checkOne {t : Source} :
    (checkOne a.options.optimize t).Stops m s ↔ Escape a module loaded m s (.source t) := by
  obtain ⟨r, o, read⟩ := returns_read t m
  rw [checkOne, stops_bind_ok read]
  constructor
  · intro h
    cases hr : t.reading with
    | error e =>
      rw [hr] at h
      exact absurd h (Returns.pure _).not_stops
    | ok tree =>
      rw [hr] at h
      have stopped := (Returns.stops_bind_iff fun made => by cases made <;> exact .pure _).1 h
      obtain ⟨level, raised⟩ := stops_ofTree.1 stopped
      exact .level hr ⟨r, read⟩ level raised
  · intro escape
    cases escape with
    | level reads read' level raised =>
      obtain ⟨_, ran⟩ := read'
      rw [read] at ran
      cases ran
      rw [reads]
      refine (Returns.stops_bind_iff fun made => ?_).2 (stops_ofTree.2 ⟨level, raised⟩)
      cases made <;> exact .pure _

theorem stops_runOne {p : Program} :
    (runOne a.sources module p).Stops m s ↔ Escape a module loaded m s (.body p) := by
  have tell (error : Nat) (o : Machine) :
      (traceOf error >>= fun trace => describe error >>= fun what =>
        (pure (.error (crash what (locationOf a.sources trace))) :
          Run (Except Diagnostic Unit))).Stops o s ↔ (describe error).Stops o s := by
    obtain ⟨trace, traced⟩ := run_traceOf error o
    rw [stops_bind_ok traced]
    exact Returns.stops_bind_iff fun _ => .pure _
  rw [runOne, stops_reporting_bind]
  constructor
  · rintro (stray | ⟨error, o, caught, h⟩ | ⟨_, o, -, h⟩)
    · exact .body stray
    · exact .bodyText caught ((tell error o).1 h)
    · exact absurd h (Returns.pure _).not_stops
  · intro escape
    cases escape with
    | body stray => exact .inl stray
    | bodyText caught wordless => exact .inr (.inl ⟨_, _, caught, (tell _ _).2 wordless⟩)

end step

end Stencil.Emission
