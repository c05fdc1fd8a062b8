import Stencil.Proofs.Emission.Naming
import Stencil.Proofs.Emission.Public
import Stencil.Proofs.Emission.Rereading

/-!
What sources see in the module that they are run in. Namespaces shadow dependencies, later ones shadow
earlier ones, and what is wrong with one of them takes nothing from the others. Beside that the module
has what it had, and the label that it was given: this holds for every name that the code of others,
which is run on the way or puts warnings into words, does not write to itself (`globals_of_prepared`).
-/

namespace Stencil

open Script Run

namespace Emission

section asking

theorem useOne_eq (module : Nat) (loaded : List Nat) (u : String) :
    useOne module loaded u = namesOf loaded u >>= fun
      | .error g => pure (.error g)
      | .ok names => do
        takeIn module names.entries
        return .ok () := by
  rw [useOne, namesOf, bind_assoc]
  refine bind_congr fun found => ?_
  cases found <;> simp

def Trial.names? (loaded : List Nat) (t : Trial) : Option (Bindings Value) :=
  match t.item with
  | .usage u => ((namesOf loaded u).run t.start).1.toOption.bind Except.toOption
  | _ => none

def taken? (loaded : List Nat) (name : String) (ts : List Trial) : Option Value :=
  ts.reverse.findSome? fun t => (t.names? loaded).bind (·.get? name)

theorem taken?_cons (loaded : List Nat) (name : String) (t : Trial) (ts : List Trial) :
    taken? loaded name (t :: ts) =
      (taken? loaded name ts).or ((t.names? loaded).bind (·.get? name)) := by
  simp [taken?, List.findSome?_append]

end asking

section step

variable {module : Nat} {m n : Machine} {name : String} {v : Option Value} {loaded : List Nat}

theorem Stands.after_takeIn {entries : List (String × Value)} (h : Stands m module name v)
    (taken : (takeIn module entries).run m = (.ok (), n)) :
    Stands n module name ((Bindings.find entries.reverse name).or v) := by
  induction entries generalizing m v with
  | nil =>
    cases taken
    exact h
  | cons e rest ih =>
    obtain ⟨key, w⟩ := e
    obtain ⟨_, o, put, later⟩ := of_run_bind taken
    have last := ih (h.after_put put) later
    rw [List.reverse_cons, Bindings.find_append, Option.or_assoc]
    by_cases same : key = name <;> simpa [Bindings.find, same] using last

/-- A namespace is asked for its public names, which are then written; nothing is written if it is not
found. -/
theorem of_run_useOne_asked {u : String} {r : Except Diagnostic Unit}
    (h : (useOne module loaded u).run m = (.ok r, n)) :
    ∃ o, ((namesOf loaded u).run m).2 = o ∧
      ((∃ k p names, r = .ok () ∧ (findNamespace u loaded).run m = (.ok (some k), p) ∧
        (Dependency.publicNames k).run p = (.ok names, o) ∧
        ((namesOf loaded u).run m).1.toOption = some (.ok names) ∧
        (takeIn module names.entries).run o = (.ok (), n)) ∨
      ∃ g g', r = .error g ∧ ((namesOf loaded u).run m).1.toOption = some (.error g') ∧ n = o) := by
  rw [useOne_eq] at h
  obtain ⟨result, o, asked, h⟩ := of_run_bind h
  rw [asked]
  refine ⟨o, rfl, ?_⟩
  obtain ⟨k, p, sought, named⟩ := of_run_bind asked
  cases k with
  | none =>
    cases named
    cases h
    exact .inr ⟨_, _, rfl, rfl, rfl⟩
  | some k =>
    obtain ⟨names, q, exported, last⟩ := of_run_bind named
    cases last
    obtain ⟨_, w, taken, last⟩ := of_run_bind h
    cases last
    exact .inl ⟨k, p, names, rfl, sought, exported, rfl, taken⟩

theorem Stands.after_useOne {u : String} {fault : Option Diagnostic} {r : Except Diagnostic Unit}
    (h : Stands m module name v) (ran : (useOne module loaded u).run m = (.ok r, n))
    (apart : Trial.Apart module loaded name ⟨.usage u, m, fault⟩) :
    Stands n module name
      (((Trial.names? loaded ⟨.usage u, m, fault⟩).bind (·.get? name)).or v) := by
  have kept := apart v h
  unfold Trial.asked at kept
  unfold Trial.names?
  dsimp only at kept ⊢
  obtain ⟨o, rfl, ⟨k, p, names, -, -, exported, brought, taken⟩ | ⟨g, _, -, nothing, rfl⟩⟩ :=
    of_run_useOne_asked ran
  · rw [brought]
    have written := kept.after_takeIn taken
    rwa [(Dependency.distinct_of_run exported).find_reverse] at written
  · rw [nothing]
    exact kept

end step

section run

variable {module : Nat} {m n : Machine} {name : String} {v : Option Value} {loaded : List Nat}
  {es : List Event}

theorem Gone.takes {us : List String} {used : List Unit}
    (h : Gone .usage (useOne module loaded) us m used n es)
    (apart : ∀ t ∈ trials es, t.Apart module loaded name) (stands : Stands m module name v) :
    Stands n module name ((taken? loaded name (trials es)).or v) := by
  induction h generalizing v with
  | nil m => exact stands
  | fault ran _ ih | well ran _ ih =>
    rw [trials_passage_append, List.forall_mem_cons] at apart
    have written := stands.after_useOne ran apart.1
    have later := ih apart.2 written
    rwa [← Option.or_assoc, ← taken?_cons, ← trials_passage_append] at later

/-- A stage of namespaces leaves what they take in, if putting warnings into words leaves it alone. -/
theorem Takes.takes {a : Assembly} {used : List Unit} (h : Takes a module loaded m used n es)
    (apart : ∀ t ∈ trials es, t.Apart module loaded name)
    (words : ∀ t ∈ wordings es, t.Apart module name) (stands : Stands m module name v) :
    Stands n module name ((taken? loaded name (trials es)).or v) :=
  Stage.stands h words fun o before gone same => by
    rw [same] at apart ⊢
    exact gone.takes apart stands

theorem Gone.checks {level : Int} {sources : List Source} {programs : List Program}
    {attrs : Bindings Value} (h : Gone .source (checkOne level) sources m programs n es)
    (found : m.heap[module]? = some (.module attrs)) : n.heap[module]? = some (.module attrs) := by
  induction h with
  | nil m => exact found
  | @fault i _ m _ _ _ _ _ h _ ih | @well i _ m _ _ _ _ _ h _ ih =>
    have kept := (sparing_checkOne level i m m).attributes h found
    exact ih kept

end run

section untried

variable {α β : Type}

def Told.Untried (t : Told α) : Prop := ∀ m, trials (t.run m).2.2 = []

theorem Told.Untried.bind {t : Told α} {f : α → Told β} (h : t.Untried) (hf : ∀ a, (f a).Untried) :
    (t >>= f).Untried := by
  intro m
  have first := h m
  rcases ht : t.run m with ⟨s | a, n, es⟩ <;> rw [ht] at first
  · rw [run_bind_error ht]
    exact first
  · rw [run_bind_ok ht, trials_append, first, hf a n]
    rfl

theorem untried_tellWordings (ws : List Issued) : (tellWordings ws).Untried := by
  induction ws with
  | nil => exact fun m => rfl
  | cons w rest ih => exact Told.Untried.bind (fun m => trials_warned _) fun _ => ih

theorem untried_tellDrain (own : List String) (fuel : Nat) (ws : List Issued) :
    (tellDrain own fuel ws).Untried := by
  induction fuel generalizing ws with
  | zero => exact fun m => rfl
  | succ fuel ih =>
    cases ws with
    | nil => exact fun m => rfl
    | cons w ws =>
      exact Told.Untried.bind (t := (tellWordings _).heard) (untried_tellWordings _) fun r => ih r.2

theorem trials_run_drained (own : List String) (t : Told α) (m : Machine) :
    trials ((t.drained own).run m).2.2 = trials (t.run m).2.2 := by
  rcases ht : t.run m with ⟨s | a, n, es⟩
  · rw [Told.drained, Told.run_bind_error (Told.run_heard_error ht)]
  · have drained : Told.Untried (tellDrain own stepLimit (warnings es) >>= fun _ => pure a) :=
      (untried_tellDrain own stepLimit _).bind fun _ _ => rfl
    rw [Told.drained, Told.run_bind_ok (Told.run_heard ht), trials_append, drained n, List.append_nil]

theorem start_of_head (step : Program → Run (Except Diagnostic Unit)) (ps : List Program)
    (m : Machine) : ∀ t ∈ (trials ((tellBodies step ps).run m).2.2).head?, t.start = m := by
  cases ps with
  | nil => rintro t ⟨⟩
  | cons p rest =>
    intro t ht
    rcases hs : (step p).run m with ⟨s | r, o⟩
    · have stopped : (tell (.body p) (step p)).run m =
          (.error s, o.quiet, .began (.body p) :: o.issued.map .warned) := by
        simp only [tell, hs]
      rw [tellBodies, Told.run_bind_error stopped] at ht
      have silent : trials (.began (.body p) :: o.issued.map .warned) = [] := trials_warned o.issued
      rw [silent] at ht
      cases ht
    · rw [tellBodies, Told.run_bind_ok (run_tell hs), trials_passage_append] at ht
      cases ht
      rfl

end untried

section preparation

variable {a : Assembly} {b : Builder} {m n : Machine} {attrs : Bindings Value}

def entered (a : Assembly) (b : Builder) (m : Machine) : Machine :=
  ((tellTaking a b.module (course a b m).loaded).run (linked a b m)).2.1

def ready (a : Assembly) (b : Builder) (m : Machine) : Machine :=
  ((tellChecking a).run (entered a b m)).2.1

structure Prepared (a : Assembly) (b : Builder) (m : Machine) : Prop where
  loads : ∃ loaded, ((tellLoading a b.module).run (start a b m)).1 = .ok loaded
  takes : ∃ used, ((tellTaking a b.module (course a b m).loaded).run (linked a b m)).1 = .ok used
  checks : ∃ programs, ((tellChecking a).run (entered a b m)).1 = .ok programs

theorem course_loading {loaded : List Nat} {left : Machine} {loading : List Event}
    (hl : (tellLoading a b.module).run (start a b m) = (.ok loaded, left, loading)) :
    (course a b m).loading = loading := by
  rw [course, loading_courseOf, hl]

theorem course_loaded {loaded : List Nat} {left : Machine} {loading : List Event}
    (hl : (tellLoading a b.module).run (start a b m) = (.ok loaded, left, loading)) :
    (course a b m).loaded = loaded := by
  rw [Course.loaded, course_loading hl]
  exact ((run_tellLoading.1 hl).brought Trial.loaded? fun d m r n h => loaded?_of_run_bindOne h).symm

/-- The stages before the bodies were gone through, each from where the one before it has led. -/
structure Staged (a : Assembly) (b : Builder) (m : Machine) (used : List Unit)
    (programs : List Program) : Prop where
  loads : Loads a b.module (start a b m) (course a b m).loaded (linked a b m) (course a b m).loading
  takes : Takes a b.module (course a b m).loaded (linked a b m) used (entered a b m)
    (course a b m).taking
  checks : Checks a (entered a b m) programs (ready a b m) (course a b m).checking

theorem Staged.quiet {used : List Unit} {programs : List Program} (h : Staged a b m used programs) :
    (entered a b m).quiet = entered a b m :=
  Takes.quiet h.takes (Loads.quiet h.loads rfl)

/-- The stages before the bodies were gone through, and the bodies are run where they have led, if they
are run at all. -/
theorem Prepared.staged (prepared : Prepared a b m) :
    ∃ used programs, Staged a b m used programs ∧
      ((course a b m).running = [] ∨ (course a b m).running =
        ((tellRunning a b.module programs).run (ready a b m)).2.2) := by
  obtain ⟨⟨loaded, loads⟩, ⟨used, takes⟩, programs, checks⟩ := prepared
  rcases hl : (tellLoading a b.module).run (start a b m) with ⟨_, m₁, loading⟩
  rcases ht : (tellTaking a b.module (course a b m).loaded).run (linked a b m) with ⟨_, m₂, taking⟩
  rcases hc : (tellChecking a).run (entered a b m) with ⟨_, m₃, checking⟩
  rw [hl] at loads
  rw [ht] at takes
  rw [hc] at checks
  cases loads
  cases takes
  cases checks
  have linked_eq : linked a b m = m₁ := by rw [linked, hl]
  have entered_eq : entered a b m = m₂ := by rw [entered, ht]
  have ready_eq : ready a b m = m₃ := by rw [ready, hc]
  rw [linked_eq, course_loaded hl] at ht
  rw [entered_eq] at hc
  refine ⟨used, programs, ⟨?_, ?_, ?_⟩, ?_⟩
  · rw [linked_eq, course_loaded hl, course_loading hl]
    exact run_tellLoading.1 hl
  · rw [linked_eq, entered_eq, course_loaded hl, course, taking_courseOf a hl, ht]
    exact run_tellTaking.1 ht
  · rw [entered_eq, ready_eq, course, checking_courseOf a hl ht, hc]
    exact run_tellChecking.1 hc
  · rw [ready_eq, course]
    by_cases well : (faults (loading ++ taking ++ checking)).isEmpty = true
    · exact .inr (running_courseOf a hl ht hc well)
    · exact .inl (by simp only [courseOf, hl, ht, hc, well, Bool.false_eq_true, if_false])

theorem Prepared.begins (prepared : Prepared a b m) :
    ∀ t ∈ (trials (course a b m).running).head?, t.start = ready a b m := by
  obtain ⟨used, programs, -, idle | ran⟩ := prepared.staged
  · rw [idle]
    rintro t ⟨⟩
  · rw [ran, tellRunning, trials_run_drained]
    exact start_of_head _ _ _

theorem prepared_of_emit {e : Emission} (h : (emit a b).run m = (.ok e, n)) : Prepared a b m := by
  obtain ⟨m₁, m₂, m₃, loaded, used, programs, hl, ht, hc, -⟩ := (emit_course h).1.gone
  have loads := run_tellLoading.2 hl
  obtain rfl : linked a b m = m₁ := by rw [linked, loads]
  obtain rfl : (course a b m).loaded = loaded := course_loaded loads
  have takes := run_tellTaking.2 ht
  obtain rfl : entered a b m = m₂ := by rw [entered, takes]
  exact ⟨⟨_, by rw [loads]⟩, ⟨_, by rw [takes]⟩, _, by rw [run_tellChecking.2 hc]⟩

def brought? (a : Assembly) (b : Builder) (m : Machine) (name : String) : Option Value :=
  (taken? (course a b m).loaded name (trials (course a b m).taking)).or
    ((lastOf name (course a b m).bindings).map .object)

/-- What stands under a name when bodies begin to be run, if neither the code of items nor what puts
warnings into words writes it. -/
theorem Prepared.stands (prepared : Prepared a b m) {name : String}
    (found : m.heap[b.module]? = some (.module attrs))
    (apart : ∀ t ∈ trials ((course a b m).loading ++ (course a b m).taking),
      t.Apart b.module (course a b m).loaded name)
    (words : ∀ t ∈ wordings ((course a b m).loading ++ (course a b m).taking),
      t.Apart b.module name) :
    Stands (ready a b m) b.module name ((brought? a b m name).or ((labelled a attrs).get? name)) := by
  obtain ⟨used, programs, staged, -⟩ := prepared.staged
  rw [trials_append, List.forall_mem_append] at apart
  rw [wordings_append, List.forall_mem_append] at words
  have bound := staged.loads.binds apart.1 words.1 ⟨_, attributes_start found, rfl⟩
  obtain ⟨globals, left, value⟩ := staged.takes.takes apart.2 words.2 bound
  obtain ⟨before, gone, -, -⟩ := staged.checks.drained staged.quiet
  refine ⟨globals, gone.checks left, ?_⟩
  rw [value, brought?, Option.or_assoc]
  rfl

end preparation

/-- The law of globals: under a name stands what a namespace has brought last, else what a dependency
was bound to last, else what the module has had. -/
def Sees (a : Assembly) (b : Builder) (m : Machine) (attrs : Bindings Value) (name : String) : Prop :=
  ((ready a b m).attributes b.module).get? name =
    ((taken? (course a b m).loaded name (trials (course a b m).taking)).or
      ((lastOf name (course a b m).bindings).map .object)).or (attrs.get? name)

structure Globals (a : Assembly) (b : Builder) (m : Machine) (attrs : Bindings Value) : Prop where
  begins : ∀ t ∈ (trials (course a b m).running).head?, t.start = ready a b m
  /-- The law holds for every name that is written neither by the code of items nor by what puts
  warnings into words. -/
  sees : ∀ name, (∀ t ∈ trials ((course a b m).loading ++ (course a b m).taking),
      t.Apart b.module (course a b m).loaded name) →
    (∀ t ∈ wordings ((course a b m).loading ++ (course a b m).taking), t.Apart b.module name) →
    Sees a b m (labelled a attrs) name
  /-- A dependency that is loaded is bound, and one with which something is wrong is not. -/
  bound : ∀ t ∈ trials (course a b m).loading, t.fault = none ↔ ∃ bound, t.binding? = some bound
  /-- A namespace that is found brings its public names, and one that is not brings none. -/
  taken : ∀ t ∈ trials (course a b m).taking, ∀ u, t.item = .usage u →
    (t.fault = none ∧ ∃ k o names, (findNamespace u (course a b m).loaded).run t.start =
        (.ok (some k), o) ∧ Dependency.Public o k names ∧
        t.names? (course a b m).loaded = some names) ∨
      t.fault ≠ none ∧ t.names? (course a b m).loaded = none

theorem globals_of_prepared {a : Assembly} {b : Builder} {m : Machine} {attrs : Bindings Value}
    (prepared : Prepared a b m) (found : m.heap[b.module]? = some (.module attrs)) :
    Globals a b m attrs := by
  obtain ⟨used, programs, staged, -⟩ := prepared.staged
  refine ⟨prepared.begins, fun name apart words => ?_, ?_, ?_⟩
  · obtain ⟨globals, left, value⟩ := prepared.stands found apart words
    rw [Sees, Machine.attributes, left]
    exact value
  · refine staged.loads.fits fun d m r n h => ?_
    unfold Trial.binding?
    dsimp only
    obtain ⟨o, -, ⟨l, b, rfl, bound, -⟩ | ⟨g, rfl, unbound, -⟩⟩ := of_run_bindOne_asked h
    · exact iff_of_true rfl ⟨b, by rw [bound]; rfl⟩
    · refine iff_of_false (by rintro ⟨⟩) ?_
      rintro ⟨x, same⟩
      rw [unbound] at same
      cases same
  · refine staged.takes.fits fun u m r n h v item => ?_
    cases item
    unfold Trial.names?
    dsimp only
    obtain ⟨o, -, ⟨k, p, names, rfl, sought, exported, brought, -⟩ | ⟨g, _, rfl, nothing, -⟩⟩ :=
      of_run_useOne_asked h
    · exact .inl ⟨rfl, k, p, names, sought, Dependency.public_of_run exported, by rw [brought]; rfl⟩
    · exact .inr ⟨by rintro ⟨⟩, by rw [nothing]; rfl⟩

/-- A module that is carried along, and a file: both have an `x`, and that of the file is taken in
last. -/
theorem globals_of_prepared_carried :
    let a : Assembly :=
      { name := "kiln.test.Unit", sources := [⟨0, "seen = x\n", "unit.py"⟩]
        dependencies := [{ name := some "lib", module := some 1 }, { location := some "/work/more.py" }]
        options := { usings := ["lib", "more"] } }
    let b : Builder := ⟨"kiln.test.Unit", "kiln.test", .runAndCollect, 0⟩
    let files : Files := { folders := [["work"]], texts := [(["work", "more.py"], "x = 2\n")] }
    let m : Machine :=
      { heap := #[.module {}, .module (.ofList [("__name__", .text "lib"), ("x", .int 1)])], files }
    Globals a b m {} ∧ (∀ name, Sees a b m (labelled a {}) name) ∧
      ((ready a b m).attributes b.module).get? "lib" = some (.object 1) ∧
      ((ready a b m).attributes b.module).get? "x" = some (.int 2) := by
  intro a b files m
  have seen : (((emit a b).run m).1.toOption.map Emission.diagnostics,
      (trials ((course a b m).loading ++ (course a b m).taking)).all (fun t =>
        t.start.keeps (t.asked (course a b m).loaded)),
      (wordings ((course a b m).loading ++ (course a b m).taking)).isEmpty,
      (((ready a b m).attributes b.module).get? "lib").any (Value.agrees · (.object 1)),
      (((ready a b m).attributes b.module).get? "x").any (Value.agrees · (.int 2))) =
      (some [], true, true, true, true) := by decide +kernel
  simp only [Prod.mk.injEq, List.isEmpty_iff] at seen
  obtain ⟨emitted, kept, silent, lib, x⟩ := seen
  obtain ⟨e, n, ran, -⟩ := returned emitted
  have globals : Globals a b m {} := globals_of_prepared (prepared_of_emit ran) rfl
  have apart (name : String) (t : Trial)
      (ht : t ∈ trials ((course a b m).loading ++ (course a b m).taking)) :
      t.Apart b.module (course a b m).loaded name := by
    rintro v ⟨attrs, found, value⟩
    exact ⟨attrs, (Intact.of_keeps (List.all_eq_true.1 kept t ht)).attributes b.module attrs found, value⟩
  obtain ⟨v, shown, same⟩ := (Option.any_eq_true _ _).1 lib
  obtain ⟨w, shown', same'⟩ := (Option.any_eq_true _ _).1 x
  have words (name : String) : ∀ t ∈ wordings ((course a b m).loading ++ (course a b m).taking),
      t.Apart b.module name := by
    rw [silent]
    exact fun _ h => by cases h
  exact ⟨globals, fun name => globals.sees name (apart name) (words name), by rw [shown, Value.eq_of_agrees same],
    by rw [shown', Value.eq_of_agrees same']⟩

/-- A registered module that a dependency writes to: the first body finds the path of its source, and
what the dependency has written. -/
theorem sees_written :
    let b := (Builder.define {} "host" "host" .run).2
    let files : Files :=
      { folders := [["work"]], texts := [(["work", "lib.py"], "import host\nhost.extra = 1\n")] }
    let m : Machine := { (Builder.define {} "host" "host" .run).1 with files }
    let a : Assembly :=
      { name := "host", sources := [⟨0, "x = 1\n", "unit.py"⟩]
        dependencies := [{ location := some "/work/lib.py" }] }
    Prepared a b m ∧ (trials (course a b m).running).length = 1 ∧
      ¬Sees a b m (m.attributes b.module) "__file__" ∧
      ¬Sees a b m (labelled a (m.attributes b.module)) "extra" := by
  intro b files m a
  have seen : (((emit a b).run m).1.toOption.map Emission.diagnostics,
      (trials (course a b m).running).length, (trials (course a b m).taking).length,
      (course a b m).bindings,
      (((ready a b m).attributes b.module).get? "__file__").isSome,
      (((ready a b m).attributes b.module).get? "extra").isSome) =
      (some [], 1, 0, [("lib", 1)], true, true) := by decide +kernel
  simp only [Prod.mk.injEq, List.length_eq_zero_iff] at seen
  obtain ⟨emitted, running, idle, bindings, file, extra⟩ := seen
  obtain ⟨e, n, ran, -⟩ := returned emitted
  have unseen {attrs : Bindings Value} {name : String} (other : "lib" ≠ name)
      (missing : attrs.get? name = none)
      (there : (((ready a b m).attributes b.module).get? name).isSome) : ¬Sees a b m attrs name := by
    intro sees
    rw [Sees, idle, bindings, missing] at sees
    rw [sees] at there
    simp [taken?, lastOf, other] at there
  exact ⟨prepared_of_emit ran, running, unseen (by decide) (by decide +kernel) file,
    unseen (by decide) (by decide +kernel) extra⟩

end Emission

end Stencil
