import Stencil.Proofs.Emission.Gate
import Stencil.Proofs.Emission.Naming

/-!
How far namespaces reach. A namespace that no loaded module goes by is imported if a loaded module has
the same name at the top, and the import knows only the table of modules. So it is found if it is in
the table, whichever package it belongs to there, and a module that is in no table leads nowhere; only
under a condition on the table do namespaces stay within the loaded packages (`emit_reaches`).
-/

namespace Stencil

open Script Run

namespace Script.Import

variable {m : Machine} {name : String}

/-- What an import finds in the table under a name, which has to be an absolute one. -/
structure Finds (m : Machine) (name : String) (v : Value) : Prop where
  absolute : name.startsWith "." = false
  named : name ≠ ""
  entry : m.modules.get? name = some v
  something : v ≠ .none

theorem Finds.eq {v w : Value} (h : Finds m name v) (h' : Finds m name w) : v = w :=
  Option.some.inj (h.entry.symm.trans h'.entry)

theorem run_find {v : Value} (depth : Nat) (entry : m.modules.get? name = some v)
    (something : v ≠ .none) : (find (depth + 1) name).run m = (.ok v, m) := by
  rw [find, run_bind, run_registered?, entry]
  cases v with
  | none => exact absurd rfl something
  | _ => rfl

theorem stops_fail {α : Type} (kind message : String) (about : Value) (m : Machine) :
    (fail kind message about : Run α).Stops m (.raised m.heap.size false) := rfl

theorem stops_find (unknown : ∀ v, m.modules.get? name = some v → v = .none) (depth : Nat) :
    ∃ s, (find depth name).Stops m s := by
  induction depth generalizing name with
  | zero => exact ⟨_, stops_fail _ _ _ m⟩
  | succ depth ih =>
    rw [find]
    simp only [stops_bind_ok (run_registered? name m)]
    cases entry : m.modules.get? name with
    | some v =>
      obtain rfl := unknown v entry
      exact ⟨_, stops_fail _ _ _ m⟩
    | none =>
      dsimp only
      split
      · exact ⟨_, stops_fail _ _ _ m⟩
      · simp only [stops_bind_ok (run_registered? _ m)]
        split
        · next package _ =>
          rw [pure_bind]
          cases package with
          | object ref =>
            simp only [stops_bind_ok (run_get m), pure_bind]
            split <;> exact ⟨_, stops_fail _ _ _ m⟩
          | _ => exact ⟨_, stops_fail _ _ _ m⟩
        · next absent =>
          have unknown (v : Value) (entry : m.modules.get? (Library.split name).1 = some v) :
              v = .none := by
            rw [absent] at entry
            cases entry
          obtain ⟨s, stopped⟩ := ih unknown
          exact ⟨s, stops_bind.2 (.inl stopped)⟩

end Script.Import

namespace Dependency

variable {m n : Machine} {u : String}

theorem run_moduleOf {v : Value} (other : ∀ ref, v ≠ .object ref) (m : Machine) :
    ∃ o, (moduleOf v).run m = (.ok m.heap.size, o) := by
  have made : moduleOf v = kindOf v >>= fun kind => alloc (.foreign kind "") := by
    cases v with
    | object ref => exact absurd rfl (other ref)
    | _ => rfl
  obtain ⟨kind, ran⟩ := run_kindOf v m
  exact ⟨_, by rw [made, run_bind, ran]; rfl⟩

def Handed (m : Machine) (v : Value) (k : Nat) (n : Machine) : Prop :=
  v = .object k ∧ n = m ∨ (∀ ref, v ≠ .object ref) ∧ k = m.heap.size

theorem Handed.eq {k l : Nat} (h : Handed m (.object l) k n) : k = l ∧ n = m := by
  obtain ⟨⟨⟩, still⟩ | ⟨other, -⟩ := h
  · exact ⟨rfl, still⟩
  · exact absurd rfl (other l)

theorem run_importNamed {v : Value} (h : Import.Finds m u v) :
    ∃ k o, (importNamed u).run m = (.ok k, o) ∧ Handed m v k o := by
  have ran : (Import.module u).run m = (.ok v, m) := Import.run_find _ h.entry h.something
  rw [importNamed, if_neg (by rw [h.absolute]; exact Bool.false_ne_true),
    if_neg (by rw [beq_eq_false_iff_ne.2 h.named]; exact Bool.false_ne_true), run_bind, ran]
  by_cases held : ∃ ref, v = .object ref
  · obtain ⟨ref, rfl⟩ := held
    exact ⟨ref, m, rfl, .inl ⟨rfl, rfl⟩⟩
  · have other : ∀ ref, v ≠ .object ref := fun ref same => held ⟨ref, same⟩
    obtain ⟨o, ran'⟩ := run_moduleOf other m
    exact ⟨m.heap.size, o, ran', .inr ⟨other, rfl⟩⟩

theorem finds_of_importNamed {k : Nat} (h : (importNamed u).run m = (.ok k, n)) :
    ∃ v, Import.Finds m u v := by
  rw [importNamed] at h
  split at h
  · cases h
  · next absolute =>
    split at h
    · cases h
    · next named =>
      obtain ⟨v, o, ran, -⟩ := of_run_bind h
      by_cases known : ∃ v, m.modules.get? u = some v ∧ v ≠ .none
      · obtain ⟨v, entry, something⟩ := known
        exact ⟨v, by simpa using absolute, by simpa using named, entry, something⟩
      · have unknown (v : Value) (entry : m.modules.get? u = some v) : v = .none :=
          Classical.byContradiction fun something => known ⟨v, entry, something⟩
        obtain ⟨s, stopped⟩ := Import.stops_find unknown (u.length + 1)
        exact absurd stopped (not_stops_of_ok ran)

end Dependency

namespace Emission

section search

variable {m n : Machine} {u : String} {loaded : List Nat}

theorem of_run_importing {found : Option Nat} (h : (importing u).run m = (.ok found, n)) :
    (∃ v k, Import.Finds m u v ∧ found = some k ∧ Dependency.Handed m v k n) ∨
      (∀ v, ¬Import.Finds m u v) ∧ found = none := by
  obtain ⟨k, ran, rfl⟩ | ⟨error, ⟨placed, failed, -⟩, rfl⟩ := (asks_isA _).run_guarding h
  · obtain ⟨v, finds⟩ := Dependency.finds_of_importNamed ran
    obtain ⟨k', o, ran', handed⟩ := Dependency.run_importNamed finds
    rw [ran] at ran'
    cases ran'
    exact .inl ⟨v, k, finds, rfl, handed⟩
  · refine .inr ⟨fun v finds => ?_, rfl⟩
    obtain ⟨k, o, ran, -⟩ := Dependency.run_importNamed finds
    rw [failed] at ran
    cases ran

def Shares (m : Machine) (loaded : List Nat) (u : String) : Prop :=
  ∃ l ∈ loaded, ∃ name, Dependency.textAttribute? m l "__name__" = some name ∧
    Event.topName name = Event.topName u

theorem run_sharesTop
    (named : ∀ l ∈ loaded, ∃ name, Dependency.textAttribute? m l "__name__" = some name) :
    ∃ shares, (sharesTop (Event.topName u) loaded).run m = (.ok shares, m) ∧
      (shares = true ↔ Shares m loaded u) := by
  induction loaded with
  | nil => exact ⟨false, rfl, by simp [Shares]⟩
  | cons l rest ih =>
    rw [List.forall_mem_cons] at named
    obtain ⟨⟨name, own⟩, others⟩ := named
    rw [sharesTop, run_bind, Dependency.run_nameOf own]
    by_cases same : Event.topName name = Event.topName u
    · exact ⟨true, by simp [same], by simp [Shares, own, same]⟩
    · obtain ⟨shares, ran, iff⟩ := ih others
      refine ⟨shares, by simpa [same] using ran, iff.trans ?_⟩
      simp [Shares, own, same]

def Resolves (m : Machine) (loaded : List Nat) (u : String) (k : Nat) : Prop :=
  ∃ n, (findNamespace u loaded).run m = (.ok (some k), n)

theorem Resolves.of_toOption {k : Nat}
    (h : ((findNamespace u loaded).run m).1.toOption = some (some k)) : Resolves m loaded u k := by
  rcases ran : (findNamespace u loaded).run m with ⟨s | found, o⟩ <;> rw [ran] at h <;> cases h
  exact ⟨o, ran⟩

theorem of_run_findNamespace {found : Option Nat}
    (named : ∀ l ∈ loaded, ∃ name, Dependency.textAttribute? m l "__name__" = some name)
    (other : firstNamed m u loaded = none) (h : (findNamespace u loaded).run m = (.ok found, n)) :
    (Shares m loaded u ∧ ∃ v k, Import.Finds m u v ∧ found = some k ∧ Dependency.Handed m v k n) ∨
    ¬(Shares m loaded u ∧ ∃ v, Import.Finds m u v) ∧ found = none := by
  obtain ⟨shares, shared, iff⟩ := run_sharesTop (u := u) named
  rw [findNamespace_eq, run_bind, run_named? named, other] at h
  dsimp only at h
  rw [run_bind, shared] at h
  cases shares with
  | false =>
    cases h
    exact .inr ⟨fun both => Bool.false_ne_true (iff.2 both.1), rfl⟩
  | true =>
    obtain found | ⟨unknown, rfl⟩ := of_run_importing h
    · exact .inl ⟨iff.1 rfl, found⟩
    · exact .inr ⟨fun ⟨_, v, finds⟩ => unknown v finds, rfl⟩

end search

section packages

variable {m : Machine} {u : String}

theorem topName_append (package name : String) :
    Event.topName (package ++ "." ++ name) = Event.topName package := by
  have first (letters rest : List Char) :
      (letters ++ '.' :: rest).takeWhile (· != '.') = letters.takeWhile (· != '.') := by
    induction letters with
    | nil => rfl
    | cons c letters ih => simp only [List.cons_append, List.takeWhile_cons, ih]
  rw [Event.topName, Event.topName, String.toList_append, String.toList_append, List.append_assoc]
  exact congrArg String.ofList (first _ _)

/-- The module at the top of a name in the table is a given one, or the package that it is registered
in. -/
def Belongs (m : Machine) (u : String) (l : Nat) : Prop :=
  ∃ top, m.modules.get? (Event.topName u) = some (.object top) ∧
    (l = top ∨ ∃ name, Dependency.textAttribute? m l "__name__" = some name ∧
      Event.topName name = Event.topName u ∧ m.modules.get? name = some (.object l))

def Searched (m : Machine) (package : String) (l : Nat) : Prop :=
  m.modules.get? package = some (.object l) ∧ (m.attributes l).has "__path__" = true

/-- A dependency was loaded from a folder, and in the folder there is the file of a module. -/
inductive Holds (c : Course) (m : Machine) (u path : String) : Prop
  | intro {t : Trial} {d : Dependency} {location package name : String} {l : Nat}
      (ht : t ∈ trials c.loading) (item : t.item = .dependency d) (bare : d.module = none)
      (located : d.location = some location)
      (folder : m.files.isFolder (Path.normal location) = true) (loaded : t.loaded? = some l)
      (called : Dependency.textAttribute? m l "__name__" = some package)
      (apart : ¬Searched m package l) (inner : u = package ++ "." ++ name)
      (single : '.' ∉ name.toList)
      (spelled : path = Path.join (Path.normal location) (name ++ ".py") ∨
        path = Path.join (Path.join (Path.normal location) name) Dependency.packageFile)
      (file : m.files.isFile path = true)

theorem loaded?_of_loaded {c : Course} {t : Trial} {l : Nat} (only : trials c.loading = [t])
    (h : c.loaded = [l]) : t.loaded? = some l := by
  rw [Course.loaded, only] at h
  cases brought : t.loaded? with
  | none =>
    rw [List.filterMap_cons_none brought] at h
    cases h
  | some k =>
    rw [List.filterMap_cons_some brought] at h
    cases h
    rfl

theorem Holds.shares {c : Course} {path : String} (h : Holds c m u path) : Shares m c.loaded u := by
  obtain ⟨ht, -, -, -, -, loaded, called, -, rfl, -, -, -⟩ := h
  exact ⟨_, List.mem_filterMap.2 ⟨_, ht, loaded⟩, _, called, (topName_append _ _).symm⟩

def FromFile (m : Machine) (k : Nat) (path : String) : Prop :=
  ∃ file, Dependency.textAttribute? m k "__file__" = some file ∧
    Dependency.placeOf m.files.working file = Dependency.placeOf m.files.working path

theorem lt_of_textAttribute? {k : Nat} {name text : String}
    (h : Dependency.textAttribute? m k name = some text) : k < m.heap.size := by
  obtain ⟨attrs, found, -⟩ := Dependency.of_textAttribute? h
  exact (Array.getElem?_eq_some_iff.1 found).1

/-- The law of reach: what a namespace leads to lies in a package that a loaded module belongs to, and
a file in the folder of a dependency is what its name leads to. -/
structure Bounded (c : Course) (m : Machine) (u : String) : Prop where
  inside : ∀ k, Resolves m c.loaded u k →
    Import.Finds m u (.object k) ∧ ∃ l ∈ c.loaded, Belongs m u l
  folders : ∀ path, Holds c m u path → ∃ k, Resolves m c.loaded u k ∧ FromFile m k path

theorem not_bounded_of_outside {c : Course} {k : Nat} (resolves : Resolves m c.loaded u k)
    (outside : ∀ l ∈ c.loaded, ¬Belongs m u l) : ¬Bounded c m u := by
  rintro ⟨inside, -⟩
  obtain ⟨-, l, member, belongs⟩ := inside k resolves
  exact outside l member belongs

structure Confined (c : Course) (m : Machine) (u : String) : Prop where
  inside : Shares m c.loaded u → ∀ v, Import.Finds m u v →
    (∃ k, v = .object k) ∧ ∃ l ∈ c.loaded, Belongs m u l
  folders : ∀ path, Holds c m u path → ∃ k, Import.Finds m u (.object k) ∧ FromFile m k path

section law

variable {c : Course} {k : Nat} {v : Value} {n : Machine}

theorem bounded_iff_of_found (shares : Shares m c.loaded u) (finds : Import.Finds m u v)
    (leads : ∀ l, Resolves m c.loaded u l ↔ l = k) (handed : Dependency.Handed m v k n) :
    Bounded c m u ↔ Confined c m u := by
  have own (l : Nat) (found : Import.Finds m u (.object l)) : l = k := by
    rw [finds.eq found] at handed
    exact handed.eq.1.symm
  constructor
  · rintro ⟨inside, folders⟩
    refine ⟨fun _ w found => ?_, fun path holds => ?_⟩
    · obtain ⟨module, within⟩ := inside k ((leads k).2 rfl)
      exact ⟨⟨k, found.eq module⟩, within⟩
    · obtain ⟨l, resolves, ⟨file, origin, place⟩⟩ := folders path holds
      cases (leads l).1 resolves
      obtain ⟨rfl, -⟩ | ⟨-, rfl⟩ := handed
      · exact ⟨k, finds, file, origin, place⟩
      · exact absurd (lt_of_textAttribute? origin) (Nat.lt_irrefl _)
  · rintro ⟨inside, folders⟩
    refine ⟨fun l resolves => ?_, fun path holds => ?_⟩
    · obtain ⟨⟨l', rfl⟩, within⟩ := inside shares v finds
      rw [(leads l).1 resolves, ← own l' finds]
      exact ⟨finds, within⟩
    · obtain ⟨l, found, origin⟩ := folders path holds
      exact ⟨l, (leads l).2 (own l found), origin⟩

theorem bounded_iff_of_missing (missing : ¬(Shares m c.loaded u ∧ ∃ v, Import.Finds m u v))
    (nowhere : ∀ l, ¬Resolves m c.loaded u l) : Bounded c m u ↔ Confined c m u := by
  constructor
  · rintro ⟨-, folders⟩
    refine ⟨fun shares v finds => absurd ⟨shares, v, finds⟩ missing, fun path holds => ?_⟩
    obtain ⟨l, resolves, -⟩ := folders path holds
    exact absurd resolves (nowhere l)
  · rintro ⟨-, folders⟩
    refine ⟨fun l resolves => absurd resolves (nowhere l), fun path holds => ?_⟩
    obtain ⟨l, finds, -⟩ := folders path holds
    exact absurd ⟨holds.shares, _, finds⟩ missing

end law

structure Reach (b : Builder) (c : Course) (t : Trial) (u : String) : Prop where
  resolved : t.fault = none ↔ Shares t.start c.loaded u ∧ ∃ v, Import.Finds t.start u v
  /-- The module of the table is the one whose public names are taken in. -/
  taken : ∀ k, t.fault = none → Import.Finds t.start u (.object k) →
    (useOne b.module c.loaded u).run t.start = (useModule b.module k).run t.start
  law : Bounded c t.start u ↔ Confined c t.start u

end packages

section reach

variable {a : Assembly} {b : Builder} {m n : Machine} {e : Emission} {t : Trial} {u : String}

theorem searched_of_trial (h : (emit a b).run m = (.ok e, n))
    (ht : t ∈ trials (course a b m).taking) (item : t.item = .usage u) :
    ∃ found o, (findNamespace u (course a b m).loaded).run t.start = (.ok found, o) ∧
      (t.fault = none ↔ ∃ k, found = some k) := by
  have fits := (emit_course h).1.fits t (by
    rw [Course.events_eq, trials_append, trials_append, trials_append]
    simp [ht])
  rw [Trial.Fits, item] at fits
  cases fault : t.fault with
  | none =>
    rw [fault] at fits
    obtain ⟨k, o, ran⟩ := fits
    exact ⟨some k, o, ran, by simp⟩
  | some g =>
    rw [fault] at fits
    obtain ⟨⟨o, ran⟩, -⟩ := fits
    exact ⟨none, o, ran, by simp⟩

theorem emit_reaches (h : (emit a b).run m = (.ok e, n)) (ht : t ∈ trials (course a b m).taking)
    (item : t.item = .usage u)
    (named : ∀ l ∈ (course a b m).loaded,
      ∃ name, Dependency.textAttribute? t.start l "__name__" = some name)
    (other : firstNamed t.start u (course a b m).loaded = none) :
    Reach b (course a b m) t u := by
  obtain ⟨found, o, ran, fault⟩ := searched_of_trial h ht item
  have leads (l : Nat) : Resolves t.start (course a b m).loaded u l ↔ found = some l := by
    refine ⟨fun ⟨o', ran'⟩ => ?_, fun same => ⟨o, by rw [ran, same]⟩⟩
    rw [ran] at ran'
    cases ran'
    rfl
  obtain ⟨shares, v, k, finds, rfl, handed⟩ | ⟨missing, rfl⟩ := of_run_findNamespace named other ran
  · refine ⟨iff_of_true (fault.2 ⟨k, rfl⟩) ⟨shares, v, finds⟩, fun l _ module => ?_, ?_⟩
    · rw [finds.eq module] at handed
      obtain ⟨rfl, rfl⟩ := handed.eq
      exact run_useOne ran
    · refine bounded_iff_of_found shares finds (fun l => ?_) handed
      rw [leads, Option.some.injEq, eq_comm]
  · refine ⟨iff_of_false (fun well => ?_) missing, fun l well _ => ?_, ?_⟩
    · obtain ⟨_, ⟨⟩⟩ := fault.1 well
    · obtain ⟨_, ⟨⟩⟩ := fault.1 well
    · exact bounded_iff_of_missing missing fun l resolves => by cases (leads l).1 resolves

end reach

/-- A module of a package that is carried along: its name leads to the module of the table. -/
theorem emit_reaches_carried :
    let a : Assembly :=
      { name := "kiln.test.Unit", dependencies := [{ name := some "json", module := some 1 }]
        options := { usings := ["json.decoder"] } }
    let b : Builder := ⟨"kiln.test.Unit", "kiln.test", .runAndCollect, 0⟩
    let m : Machine :=
      { heap := #[.module {}, .module (.ofList [("__name__", .text "json")]),
          .module (.ofList [("__name__", .text "json.decoder"), ("x", .int 1)])]
        modules := .ofList [("json", .object 1), ("json.decoder", .object 2)] }
    ∃ t, trials (course a b m).taking = [t] ∧ Reach b (course a b m) t "json.decoder" ∧
      t.fault = none ∧ ∃ l ∈ (course a b m).loaded, Belongs t.start "json.decoder" l := by
  intro a b m
  have emitted : ((emit a b).run m).1.toOption.map Emission.diagnostics = some [] := by
    decide +kernel
  obtain ⟨e, n, ran, -⟩ := returned emitted
  have loaded : (course a b m).loaded = [1] := by decide +kernel
  have seen : (trials (course a b m).taking).map (fun t =>
      (t.fault.isNone, Dependency.textAttribute? t.start 1 "__name__",
        (t.start.modules.get? "json").any (Value.agrees · (.object 1)))) =
      [(true, some "json", true)] := by decide +kernel
  obtain ⟨t, only, seen⟩ := List.map_eq_singleton_iff.1 seen
  simp only [Prod.mk.injEq, Option.isNone_iff_eq_none] at seen
  obtain ⟨well, called, top⟩ := seen
  obtain ⟨v, entry, same⟩ := (Option.any_eq_true _ _).1 top
  rw [Value.eq_of_agrees same] at entry
  have item : t.item = .usage "json.decoder" := by
    have items := (emit_course ran).1.taking_items
    rw [only] at items
    exact List.head_eq_of_cons_eq items
  have reach := emit_reaches (t := t) (u := "json.decoder") ran (by simp [only]) item
    (by simp [loaded, called]) (by simp [loaded, firstNamed, called])
  exact ⟨t, only, reach, well, 1, by simp [loaded], 1, entry, .inl rfl⟩

/-- A folder of the name of a package in the table: the name of a module in it leads to the module of
the other package, and not to the file in the folder. -/
theorem emit_overreaches :
    let a : Assembly :=
      { name := "kiln.test.Unit", dependencies := [{ location := some "/work/json" }]
        options := { usings := ["json.decoder"] } }
    let b : Builder := ⟨"kiln.test.Unit", "kiln.test", .runAndCollect, 0⟩
    let files : Files :=
      { folders := [["work"], ["work", "json"]]
        texts := [(["work", "json", "__init__.py"], ""), (["work", "json", "decoder.py"], "x = 1\n")] }
    let m : Machine :=
      { heap := #[.module {}, .module (.ofList [("__name__", .text "json")]),
          .module (.ofList [("__name__", .text "json.decoder")])]
        modules := .ofList [("json", .object 1), ("json.decoder", .object 2)], files }
    ((emit a b).run m).1.toOption.map Emission.diagnostics = some [] ∧
      ∃ t, trials (course a b m).taking = [t] ∧
        Resolves t.start (course a b m).loaded "json.decoder" 2 ∧
        (∀ l ∈ (course a b m).loaded, ¬Belongs t.start "json.decoder" l) ∧
        Holds (course a b m) t.start "json.decoder" "/work/json/decoder.py" ∧
        ¬FromFile t.start 2 "/work/json/decoder.py" ∧
        ¬Bounded (course a b m) t.start "json.decoder" := by
  intro a b files m
  have emitted : ((emit a b).run m).1.toOption.map Emission.diagnostics = some [] := by
    decide +kernel
  obtain ⟨e, n, ran, -⟩ := returned emitted
  have loaded : (course a b m).loaded = [4] := by decide +kernel
  have seen : (trials (course a b m).taking).map (fun t =>
      (((findNamespace "json.decoder" [4]).run t.start).1.toOption,
        Dependency.textAttribute? t.start 4 "__name__", Dependency.textAttribute? t.start 2 "__file__",
        t.start.files.isFolder "/work/json" && t.start.files.isFile "/work/json/decoder.py",
        (t.start.modules.get? "json").any (Value.agrees · (.object 1)))) =
      [(some (some 2), some "json", none, true, true)] := by decide +kernel
  obtain ⟨t, only, seen⟩ := List.map_eq_singleton_iff.1 seen
  simp only [Prod.mk.injEq, Bool.and_eq_true] at seen
  obtain ⟨found, called, placeless, ⟨folder, file⟩, top⟩ := seen
  obtain ⟨v, entry, same⟩ := (Option.any_eq_true _ _).1 top
  rw [Value.eq_of_agrees same] at entry
  have resolves : Resolves t.start (course a b m).loaded "json.decoder" 2 :=
    .of_toOption (loaded ▸ found)
  have outside : ∀ l ∈ (course a b m).loaded, ¬Belongs t.start "json.decoder" l := by
    rintro l member ⟨top, at_top, within⟩
    obtain rfl := List.mem_singleton.1 (loaded ▸ member)
    rw [show Event.topName "json.decoder" = "json" by decide +kernel, entry] at at_top
    cases at_top
    obtain ⟨⟨⟩⟩ | ⟨name, own, -, registered⟩ := within
    rw [called] at own
    cases own
    rw [entry] at registered
    cases registered
  have holds : Holds (course a b m) t.start "json.decoder" "/work/json/decoder.py" := by
    obtain ⟨t', loading, item⟩ := List.map_eq_singleton_iff.1 (emit_course ran).1.loading_items
    have brought : t'.loaded? = some 4 := loaded?_of_loaded loading loaded
    have normal : Path.normal "/work/json" = "/work/json" := by decide +kernel
    have apart : ¬Searched t.start "json" 4 := by
      rintro ⟨registered, -⟩
      rw [entry] at registered
      cases registered
    have spelled : "/work/json/decoder.py" =
        Path.join (Path.normal "/work/json") ("decoder" ++ ".py") := by decide +kernel
    exact .intro (by simp [loading]) item rfl rfl (by rw [normal, folder]) brought called apart
      (by decide +kernel) (by decide) (.inl spelled) file
  have elsewhere : ¬FromFile t.start 2 "/work/json/decoder.py" := by
    rintro ⟨file, origin, -⟩
    rw [placeless] at origin
    cases origin
  exact ⟨emitted, t, only, resolves, outside, holds, elsewhere,
    not_bounded_of_outside resolves outside⟩

end Emission

end Stencil
