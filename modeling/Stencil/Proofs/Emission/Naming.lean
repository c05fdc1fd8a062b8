import Mathlib.Data.List.Find
import Mathlib.Data.List.TakeWhile
import Stencil.Proofs.Emission.Restraint

/-!
Names of dependencies in two readings. In the module a name stands for what it was bound to last; as a
namespace it stands for the first loaded module that goes by it. A module without a package is always
bound under its own name, so both readings find something, and they agree if the last binding of the
name is to the first module of that name (`emit_names`).
-/

namespace Stencil

open Script Run

namespace Script.Machine

variable {m : Machine} {ref k : Nat}

def without (m : Machine) (ref : Nat) : Machine :=
  { m with heap := m.heap.set! ref (.foreign "object" "") }

theorem without_heap (apart : k ≠ ref) : (m.without ref).heap[k]? = m.heap[k]? := by
  rw [without, Array.set!_eq_setIfInBounds, Array.getElem?_setIfInBounds_ne apart.symm]

theorem fresh_without (m : Machine) (ref : Nat) : Fresh (m.without ref) ref := by
  intro attrs same
  rw [without, Array.set!_eq_setIfInBounds, Array.getElem?_setIfInBounds_self] at same
  split at same <;> cases same

theorem intact_without (m : Machine) (ref : Nat) : Intact (m.without ref) m where
  modules := rfl
  attributes k attrs found := by
    have apart : k ≠ ref := by
      rintro rfl
      exact m.fresh_without k attrs found
    rwa [without_heap apart] at found

end Script.Machine

namespace Dependency

variable {m : Machine} {module : Nat} {name : String}

theorem of_textAttribute? {text : String} (h : textAttribute? m module name = some text) :
    ∃ attrs, m.heap[module]? = some (.module attrs) ∧ attrs.get? name = some (.text text) := by
  unfold textAttribute? Machine.attributes at h
  cases found : m.heap[module]? with
  | none =>
    rw [found] at h
    cases h
  | some o =>
    rw [found] at h
    cases o with
    | module attrs =>
      dsimp only at h
      split at h <;> cases h
      exact ⟨attrs, rfl, by assumption⟩
    | _ => cases h

theorem run_getMember_text {text : String} (h : textAttribute? m module name = some text)
    (other : name ≠ "__class__") :
    (getMember Interpreter.top (.object module) name).run m = (.ok (.text text), m) := by
  obtain ⟨attrs, found, value⟩ := of_textAttribute? h
  rw [getMember, run_bind, run_member?_module _ found other, value]
  rfl

theorem run_nameOf {text : String} (h : textAttribute? m module "__name__" = some text) :
    (nameOf module).run m = (.ok text, m) := by
  rw [nameOf, run_bind, run_getMember_text h (by decide)]
  rfl

theorem run_binding_of_dotless {text : String} (h : textAttribute? m module "__name__" = some text)
    (dotless : '.' ∉ text.toList) : (binding module).run m = (.ok (text, module), m) := by
  have letters : ∀ c ∈ text.toList, (c != '.') = true := fun c hc => by
    rw [bne_iff_ne]
    rintro rfl
    exact dotless hc
  have top : Event.topName text = text := by
    rw [Event.topName, List.takeWhile_eq_self_iff.2 letters, String.ofList_toList]
  have last : (Library.split text).2 = text := by
    have reversed : ∀ c ∈ text.toList.reverse, (c != '.') = true := by simpa using letters
    unfold Library.split
    dsimp only
    rw [List.takeWhile_eq_self_iff.2 reversed, List.reverse_reverse, String.ofList_toList]
  rw [binding, run_bind, run_nameOf h]
  dsimp only
  rw [run_bind, Import.run_registered?]
  dsimp only
  split
  · next ref registered =>
    split
    · next same =>
      rw [top, run_bind, Import.run_registered?, registered, same]
      rfl
    · rw [last]
      rfl
  · rw [last]
    rfl

end Dependency

namespace Emission

section search

variable {m : Machine} {u : String} {loaded : List Nat}

def firstNamed (m : Machine) (u : String) (loaded : List Nat) : Option Nat :=
  loaded.find? fun k => Dependency.textAttribute? m k "__name__" == some u

theorem of_firstNamed {k : Nat} (h : firstNamed m u loaded = some k) :
    k ∈ loaded ∧ Dependency.textAttribute? m k "__name__" = some u :=
  ⟨List.mem_of_find?_eq_some h, by simpa using List.find?_some h⟩

theorem exists_firstNamed {k : Nat} (hk : k ∈ loaded)
    (own : Dependency.textAttribute? m k "__name__" = some u) :
    ∃ first, firstNamed m u loaded = some first := by
  rw [← Option.isSome_iff_exists, firstNamed, List.find?_isSome]
  exact ⟨k, hk, by rw [own]; exact beq_self_eq_true _⟩

theorem run_named? (named : ∀ k ∈ loaded, ∃ name, Dependency.textAttribute? m k "__name__" = some name) :
    (named? u loaded).run m = (.ok (firstNamed m u loaded), m) := by
  induction loaded with
  | nil => rfl
  | cons k rest ih =>
    rw [List.forall_mem_cons] at named
    obtain ⟨⟨name, own⟩, others⟩ := named
    rw [named?, run_bind, Dependency.run_getMember_text own (by decide), firstNamed, List.find?_cons, own]
    dsimp only
    by_cases same : name = u
    · simp [same]
    · have differs : (name == u) = false := beq_eq_false_iff_ne.2 same
      have later := ih others
      rw [firstNamed] at later
      simp [differs, later]

theorem run_findNamespace {k : Nat}
    (named : ∀ k ∈ loaded, ∃ name, Dependency.textAttribute? m k "__name__" = some name)
    (first : firstNamed m u loaded = some k) :
    (findNamespace u loaded).run m = (.ok (some k), m) := by
  rw [findNamespace_eq, run_bind, run_named? named, first]
  rfl

end search

section binding

def lastOf (u : String) (bs : List (String × Nat)) : Option Nat :=
  (bs.reverse.find? fun b => b.1 == u).map Prod.snd

theorem lastOf_append (u : String) (bs cs : List (String × Nat)) :
    lastOf u (bs ++ cs) = (lastOf u cs).or (lastOf u bs) := by
  rw [lastOf, List.reverse_append, List.find?_append, Option.map_or]
  rfl

theorem mem_of_lastOf {u : String} {bs : List (String × Nat)} {bound : Nat}
    (h : lastOf u bs = some bound) : (u, bound) ∈ bs := by
  obtain ⟨⟨name, _⟩, found, rfl⟩ := Option.map_eq_some_iff.1 h
  obtain rfl : name = u := by simpa using List.find?_some found
  exact List.mem_reverse.1 (List.mem_of_find?_eq_some found)

theorem exists_lastOf {u : String} {bs : List (String × Nat)} {k : Nat} (h : (u, k) ∈ bs) :
    ∃ bound, lastOf u bs = some bound := by
  have found : (bs.reverse.find? fun b => b.1 == u).isSome := by
    rw [List.find?_isSome]
    exact ⟨(u, k), List.mem_reverse.2 h, beq_self_eq_true u⟩
  obtain ⟨b, hb⟩ := Option.isSome_iff_exists.1 found
  exact ⟨b.2, by rw [lastOf, hb]; rfl⟩

/-- The name that a dependency is bound under when it is gone through, and what it is bound to. -/
def Trial.binding? (t : Trial) : Option (String × Nat) :=
  match t.item with
  | .dependency d => ((d.load >>= Dependency.binding).run t.start).1.toOption
  | _ => none

def Trial.Leaves (module : Nat) (t : Trial) : Prop :=
  ∀ d attrs, t.item = .dependency d → t.start.heap[module]? = some (.module attrs) →
    ((d.load >>= Dependency.binding).run t.start).2.heap[module]? = some (.module attrs)

theorem run_putAttribute_module {m : Machine} {module : Nat} {attrs : Bindings Value}
    (found : m.heap[module]? = some (.module attrs)) (name : String) (v : Value) :
    ∃ n, (putAttribute module name v).run m = (.ok (), n) ∧
      n.heap[module]? = some (.module (attrs.set name v)) := by
  have there : module < m.heap.size := (Array.getElem?_eq_some_iff.1 found).1
  refine ⟨_, by rw [putAttribute, run_bind, run_object_of found]; rfl, ?_⟩
  change (m.heap.set! module (.module (attrs.set name v)))[module]? = _
  rw [Array.set!_eq_setIfInBounds, Array.getElem?_setIfInBounds_self, if_pos there]

def Stands (m : Machine) (module : Nat) (name : String) (v : Option Value) : Prop :=
  ∃ attrs, m.heap[module]? = some (.module attrs) ∧ attrs.get? name = v

/-- What a dependency is loaded as, with the name that it is bound under and what it is bound to. -/
def bindingOf (d : Dependency) : Run (Except Diagnostic (Nat × String × Nat)) := do
  match ← reporting d.load with
  | .error error => return .error (unloadable d (← describe error))
  | .ok loaded => return .ok (loaded, ← Dependency.binding loaded)

def namesOf (loaded : List Nat) (u : String) : Run (Except Diagnostic (Bindings Value)) := do
  match ← findNamespace u loaded with
  | none => return .error (unknownNamespace u)
  | some found => return .ok (← Dependency.publicNames found)

/-- The machine that an item leaves before anything is written into the module for it. -/
def Trial.asked (loaded : List Nat) (t : Trial) : Machine :=
  match t.item with
  | .dependency d => ((bindingOf d).run t.start).2
  | .usage u => ((namesOf loaded u).run t.start).2
  | _ => t.start

def Trial.Apart (module : Nat) (loaded : List Nat) (name : String) (t : Trial) : Prop :=
  ∀ v, Stands t.start module name v → Stands (t.asked loaded) module name v

theorem bindOne_eq (module : Nat) (d : Dependency) :
    bindOne module d = bindingOf d >>= fun
      | .error g => pure (.error g)
      | .ok (loaded, name, bound) => do
        putAttribute module name (.object bound)
        return .ok loaded := by
  rw [bindOne, bindingOf, bind_assoc]
  refine bind_congr fun result => ?_
  cases result <;> simp

/-- A dependency is asked for its binding, which is then written; nothing is written if something is
wrong with it. -/
theorem of_run_bindOne_asked {module : Nat} {d : Dependency} {m n : Machine}
    {r : Except Diagnostic Nat} (h : (bindOne module d).run m = (.ok r, n)) :
    ∃ o, ((bindingOf d).run m).2 = o ∧
      ((∃ l b, r = .ok l ∧ (d.load >>= Dependency.binding).run m = (.ok b, o) ∧
        (putAttribute module b.1 (.object b.2)).run o = (.ok (), n)) ∨
      ∃ g, r = .error g ∧ ((d.load >>= Dependency.binding).run m).1.toOption = none ∧ n = o) := by
  rw [bindOne_eq] at h
  obtain ⟨result, o, asked, h⟩ := of_run_bind h
  refine ⟨o, by rw [asked], ?_⟩
  obtain ⟨loaded, p, first, last⟩ := of_run_bind asked
  obtain ⟨l, rfl, ran⟩ | ⟨error, placed, q, rfl, failed⟩ := of_run_reporting first
  · obtain ⟨b, q, bound, last⟩ := of_run_bind last
    cases last
    obtain ⟨_, w, put, last⟩ := of_run_bind h
    cases last
    refine .inl ⟨l, b, rfl, ?_, put⟩
    rw [run_bind, ran]
    exact bound
  · obtain ⟨what, q, said, last⟩ := of_run_bind last
    cases last
    cases h
    refine .inr ⟨_, rfl, ?_, rfl⟩
    rw [run_bind, failed]
    rfl

section stands

variable {module : Nat} {m n : Machine} {name : String} {v : Option Value} {loaded : List Nat}
  {ds : List Dependency} {brought : List Nat} {es : List Event}

theorem Stands.after_put (h : Stands m module name v) {key : String} {w : Value}
    (put : (putAttribute module key w).run m = (.ok (), n)) :
    Stands n module name (if key = name then some w else v) := by
  obtain ⟨attrs, found, value⟩ := h
  obtain ⟨o, put', found'⟩ := run_putAttribute_module found key w
  rw [put] at put'
  cases put'
  exact ⟨_, found', by rw [Bindings.get?_set, value]⟩

theorem Stands.after_bindOne {d : Dependency} {fault : Option Diagnostic} {r : Except Diagnostic Nat}
    (h : Stands m module name v) (ran : (bindOne module d).run m = (.ok r, n))
    (apart : Trial.Apart module loaded name ⟨.dependency d, m, fault⟩) :
    Stands n module name
      (((lastOf name (Trial.binding? ⟨.dependency d, m, fault⟩).toList).map .object).or v) := by
  have kept := apart v h
  unfold Trial.asked at kept
  unfold Trial.binding?
  dsimp only at kept ⊢
  obtain ⟨o, rfl, ⟨l, b, -, bound, put⟩ | ⟨g, -, unbound, rfl⟩⟩ := of_run_bindOne_asked ran
  · rw [bound]
    change Stands n module name (((lastOf name [b]).map .object).or v)
    have written := kept.after_put put
    by_cases same : b.1 = name <;> simpa [lastOf, same] using written
  · rw [unbound]
    exact kept

variable (h : Gone .dependency (bindOne module) ds m brought n es)

include h

/-- Dependencies are bound one after the other, and those with which something is wrong are left out. -/
theorem Gone.binds
    (apart : ∀ t ∈ trials es, t.Apart module loaded name) (stands : Stands m module name v) :
    Stands n module name
      (((lastOf name ((trials es).filterMap Trial.binding?)).map .object).or v) := by
  have first (t : Trial) (rest : List Trial) :
      lastOf name ((t :: rest).filterMap Trial.binding?) =
        (lastOf name (rest.filterMap Trial.binding?)).or (lastOf name t.binding?.toList) := by
    rw [← lastOf_append, List.filterMap_cons]
    cases t.binding? <;> rfl
  induction h generalizing v with
  | nil m => exact stands
  | fault ran _ ih | well ran _ ih =>
    rw [trials_passage_append, List.forall_mem_cons] at apart
    have written := stands.after_bindOne ran apart.1
    have later := ih apart.2 written
    rwa [← Option.or_assoc, ← Option.map_or, ← first, ← trials_passage_append] at later

/-- Beside loading a dependency and asking for its name, only the report of an error runs code. -/
theorem Gone.apart (well : ∀ t ∈ trials es, t.fault = none)
    (leaves : ∀ t ∈ trials es, t.Leaves module) : ∀ t ∈ trials es, t.Apart module loaded name := by
  have spared : ∀ t ∈ trials es, t.fault = none → t.Leaves module → t.Apart module loaded name := by
    refine h.fits fun d m r n ran well leaves => ?_
    rintro v ⟨attrs, found, value⟩
    obtain ⟨o, rfl, ⟨l, b, -, bound, -⟩ | ⟨g, rfl, -⟩⟩ := of_run_bindOne_asked ran
    · have kept := leaves d attrs rfl found
      rw [bound] at kept
      exact ⟨attrs, kept, value⟩
    · cases well
  exact fun t ht => spared t ht (well t ht) (leaves t ht)

end stands

def Wording.Apart (module : Nat) (name : String) (t : Wording) : Prop :=
  ∀ v, Stands t.start module name v → Stands ((wording t.warning).run t.start).2 module name v

section words

variable {module : Nat} {m n : Machine} {name : String} {v : Option Value} {own : List String}
  {ws : List Issued} {es : List Event}

theorem Voiced.stands (h : Voiced ws m n es) (apart : ∀ t ∈ wordings es, t.Apart module name)
    (stands : Stands m module name v) : Stands n module name v := by
  induction h with
  | nil m => exact stands
  | @cons w rest m n o text es ran later ih =>
    rw [wordings_append, List.forall_mem_append] at apart
    have kept := apart.1 ⟨w, m⟩ List.mem_cons_self v stands
    rw [ran] at kept
    exact ih apart.2 kept

theorem Drained.stands {fuel : Nat} (h : Drained own fuel ws m n es)
    (apart : ∀ t ∈ wordings es, t.Apart module name) (stands : Stands m module name v) :
    Stands n module name v := by
  induction h with
  | nil fuel m => exact stands
  | more h rest ih =>
    rw [wordings_append, List.forall_mem_append] at apart
    exact ih apart.2 (h.stands apart.1 stands)

theorem Voiced.of_silent (h : Voiced ws m n es) (silent : wordings es = []) : n = m ∧ es = [] := by
  cases h with
  | nil m => exact ⟨rfl, rfl⟩
  | cons ran later => cases silent

theorem Drained.left_of_silent {fuel : Nat} (h : Drained own fuel ws m n es)
    (silent : wordings es = []) : n = m := by
  cases h with
  | nil fuel m => rfl
  | more h rest =>
    rw [wordings_append, List.append_eq_nil_iff] at silent
    obtain ⟨rfl, rfl⟩ := h.of_silent silent.1
    cases rest
    rfl

theorem Stage.stands {P : Machine → List Event → Prop} (h : Stage own P n es)
    (words : ∀ t ∈ wordings es, t.Apart module name)
    (gone : ∀ o before, P o before → trials es = trials before → Stands o module name v) :
    Stands n module name v := by
  obtain ⟨o, before, after, here, drained, rfl⟩ := h
  rw [wordings_append, List.forall_mem_append] at words
  refine drained.stands words.2 (gone o before here ?_)
  rw [trials_append, drained.aside.trials, List.append_nil]

end words

theorem Loads.binds {a : Assembly} {module : Nat} {m n : Machine} {name : String} {v : Option Value}
    {loaded brought : List Nat} {es : List Event} (h : Loads a module m brought n es)
    (apart : ∀ t ∈ trials es, t.Apart module loaded name)
    (words : ∀ t ∈ wordings es, t.Apart module name) (stands : Stands m module name v) :
    Stands n module name (((lastOf name ((trials es).filterMap Trial.binding?)).map .object).or v) :=
  Stage.stands h words fun o before gone same => by
    rw [same] at apart ⊢
    exact gone.binds apart stands

theorem Loads.apart {a : Assembly} {module : Nat} {m n : Machine} {name : String}
    {loaded brought : List Nat} {es : List Event} (h : Loads a module m brought n es)
    (well : ∀ t ∈ trials es, t.fault = none) (leaves : ∀ t ∈ trials es, t.Leaves module) :
    ∀ t ∈ trials es, t.Apart module loaded name := by
  obtain ⟨_, before, gone, same, -⟩ := h.gone
  rw [same] at well leaves ⊢
  exact gone.apart well leaves

end binding

/-- The names that the dependencies were bound under, and what they were bound to, in order. -/
def Course.bindings (c : Course) : List (String × Nat) := (trials c.loading).filterMap Trial.binding?

/-- The machine on which namespaces begin to be taken in: all dependencies are bound. -/
def linked (a : Assembly) (b : Builder) (m : Machine) : Machine :=
  ((tellLoading a b.module).run (start a b m)).2.1

def useModule (module k : Nat) : Run (Except Diagnostic Unit) := do
  takeIn module (← Dependency.publicNames k).entries
  return .ok ()

/-- Every dependency loads and leaves the emitted module alone, and what was loaded keeps its name. -/
structure Settled (a : Assembly) (b : Builder) (m : Machine) : Prop where
  module : ∃ attrs, m.heap[b.module]? = some (.module attrs)
  well : ∀ t ∈ trials (course a b m).loading, t.fault = none
  apart : ∀ t ∈ trials (course a b m).loading, t.Leaves b.module
  words : ∀ t ∈ wordings (course a b m).loading, ∀ name, t.Apart b.module name
  keeps : ∀ t ∈ trials (course a b m).loading, ∀ d k n, t.item = .dependency d →
    d.load.run t.start = (.ok k, n) → ∃ name, Dependency.textAttribute? n k "__name__" = some name ∧
      Dependency.textAttribute? (linked a b m) k "__name__" = some name

structure Named (a : Assembly) (b : Builder) (m : Machine) (u : String) (k bound : Nat) : Prop where
  first : firstNamed (linked a b m) u (course a b m).loaded = some k
  /-- Its public names are taken in, as long as no loaded module changes its name. -/
  taken : ∀ t ∈ trials (course a b m).taking, t.item = .usage u →
    (∀ l ∈ (course a b m).loaded, Dependency.textAttribute? t.start l "__name__" =
      Dependency.textAttribute? (linked a b m) l "__name__") →
    (useOne b.module (course a b m).loaded u).run t.start = (useModule b.module k).run t.start
  last : lastOf u (course a b m).bindings = some bound
  shown : ((linked a b m).attributes b.module).get? u = some (.object bound)
  agree : (∀ c, (u, c) ∈ (course a b m).bindings → c = k) → bound = k

section carried

variable {before m n : Machine} {module : Nat}

theorem textAttribute?_of_intact {k : Nat} {name text : String} (h : Intact m n)
    (value : Dependency.textAttribute? m k name = some text) :
    Dependency.textAttribute? n k name = some text := by
  obtain ⟨attrs, found, value⟩ := Dependency.of_textAttribute? value
  rw [Dependency.textAttribute?, Machine.attributes, h.attributes k attrs found]
  dsimp only
  rw [value]

theorem answers_of_textAttribute? {k : Nat} {name text : String}
    (value : Dependency.textAttribute? m k name = some text) : m.answers k name = true := by
  obtain ⟨attrs, found, value⟩ := Dependency.of_textAttribute? value
  rw [Machine.answers, found]
  dsimp only
  rw [Bindings.has, value]
  rfl

theorem run_load_carried {d : Dependency} {k : Nat} (hk : d.module = some k) (m : Machine) :
    d.load.run m = (.ok k, m) := by
  rw [Dependency.load, hk]
  rfl

theorem spares_bindOne_carried {d : Dependency} {k : Nat} (fresh : Fresh before module)
    (hk : d.module = some k) (answers : m.answers k "__name__" = true) :
    Spares before (bindOne module d) m := by
  have idle : d.launch? m = none := by
    rw [Dependency.launch?, Dependency.executed?, hk]
    rfl
  have plain : Place.isPlain module ⟨.dependency d, [], m⟩ = true := by
    rw [Place.isPlain, run_load_carried hk]
    exact answers
  refine spares_bindOne fresh (fun l launched => ?_) (Place.asks_of_isPlain plain)
  rw [idle] at launched
  cases launched

theorem leaves_carried {d : Dependency} {k : Nat} {fault : Option Diagnostic} (hk : d.module = some k)
    (answers : m.answers k "__name__" = true) : Trial.Leaves module ⟨.dependency d, m, fault⟩ := by
  rintro d attrs ⟨⟩ found
  have spared : Spares m (d.load >>= Dependency.binding) m :=
    Spares.bind (.of_still (by rw [Still, run_load_carried hk])) fun l o ran => by
      rw [run_load_carried hk] at ran
      cases ran
      exact Dependency.spares_binding (Dependency.spares_nameOf answers)
  exact (spared (.refl m)).attributes module attrs found

theorem Gone.carried {ds : List Dependency} {loaded : List Nat} {es : List Event}
    (h : Gone .dependency (bindOne module) ds m loaded n es) (fresh : Fresh before module)
    (carried : ∀ d ∈ ds, ∃ k, d.module = some k ∧ before.answers k "__name__" = true)
    (intact : Intact before m) :
    Intact before n ∧ ∀ t ∈ trials es, Intact before t.start ∧ t.fault = none ∧ t.Leaves module := by
  induction h with
  | nil m => exact ⟨intact, by simp [trials]⟩
  | @fault d rest m n o g loaded es h later ih =>
    obtain ⟨k, hk, -⟩ := carried d List.mem_cons_self
    obtain ⟨_, _, ⟨⟩, -⟩ | ⟨_, _, _, _, -, failed⟩ := of_run_bindOne h
    rw [run_load_carried hk] at failed
    cases failed
  | @well d rest m n o l loaded es h later ih =>
    rw [List.forall_mem_cons] at carried
    obtain ⟨⟨k, hk, answers⟩, others⟩ := carried
    have answers' := intact.answers answers
    have kept := spares_bindOne_carried fresh hk answers' intact
    rw [h] at kept
    obtain ⟨left, rest⟩ := ih others kept.quiet
    rw [trials_passage_append, List.forall_mem_cons]
    exact ⟨left, ⟨intact, rfl, leaves_carried hk answers'⟩, rest⟩

/-- Dependencies that carry modules with names are settled, if nothing has to be put into words. -/
theorem settled_of_carried {a : Assembly} {b : Builder} {e : Emission}
    (h : (emit a b).run m = (.ok e, n)) {attrs : Bindings Value}
    (found : m.heap[b.module]? = some (.module attrs))
    (carried : ∀ d ∈ a.dependencies, ∃ k name, d.module = some k ∧ k ≠ b.module ∧
      Dependency.textAttribute? m k "__name__" = some name)
    (silent : wordings (course a b m).loading = []) : Settled a b m := by
  have fresh := m.fresh_without b.module
  have started : Intact (m.without b.module) (start a b m) :=
    (spares_label a fresh (m.intact_without b.module).quiet).of_eq rfl rfl
  obtain ⟨left, _, _, _, _, _, hl, -⟩ := (emit_course h).1.gone
  obtain rfl : linked a b m = left := by rw [linked, run_tellLoading.2 hl]
  have items := Stage.items hl
  obtain ⟨o, before, after, hl, drained, parts⟩ := hl
  rw [parts, wordings_append, List.append_eq_nil_iff] at silent
  obtain rfl := drained.left_of_silent silent.2
  have same : trials (course a b m).loading = trials before := by
    rw [parts, trials_append, drained.aside.trials, List.append_nil]
  have named : ∀ d ∈ a.dependencies, ∃ k name, d.module = some k ∧
      Dependency.textAttribute? (m.without b.module) k "__name__" = some name := by
    intro d hd
    obtain ⟨k, name, hk, apart, value⟩ := carried d hd
    refine ⟨k, name, hk, ?_⟩
    rw [← value, Dependency.textAttribute?, Machine.attributes, Machine.without_heap apart,
      Dependency.textAttribute?, Machine.attributes]
  obtain ⟨kept, gone⟩ := hl.carried fresh (fun d hd => by
    obtain ⟨k, name, hk, value⟩ := named d hd
    exact ⟨k, hk, answers_of_textAttribute? value⟩) started
  rw [← same] at gone
  refine ⟨⟨attrs, found⟩, fun t ht => (gone t ht).2.1, fun t ht => (gone t ht).2.2, ?_, ?_⟩
  · rw [parts, wordings_append, silent.1, silent.2]
    exact fun _ h => by cases h
  intro t ht d k o item ran
  have member : d ∈ a.dependencies := by
    have member := List.mem_map_of_mem (f := Trial.item) ht
    rw [items, item, List.mem_map] at member
    obtain ⟨_, hd, ⟨⟩⟩ := member
    exact hd
  obtain ⟨_, name, hk, value⟩ := named d member
  rw [run_load_carried hk] at ran
  cases ran
  exact ⟨name, textAttribute?_of_intact (gone t ht).1 value, textAttribute?_of_intact kept value⟩

end carried

section names

variable {a : Assembly} {b : Builder} {m n : Machine} {e : Emission} {u : String}

theorem run_useOne {module k : Nat} {loaded : List Nat}
    (found : (findNamespace u loaded).run m = (.ok (some k), m)) :
    (useOne module loaded u).run m = (useModule module k).run m := by
  rw [useOne, run_bind, found]
  rfl

theorem Trial.of_loaded? {t : Trial} {k : Nat} (h : t.loaded? = some k) :
    ∃ d o, t.item = .dependency d ∧ d.load.run t.start = (.ok k, o) := by
  unfold loaded? at h
  split at h
  · next d item =>
    rcases ran : d.load.run t.start with ⟨_ | l, o⟩ <;> rw [ran] at h <;> cases h
    exact ⟨d, o, item, ran⟩
  · cases h

def labelled (a : Assembly) (attrs : Bindings Value) : Bindings Value :=
  let attrs := match a.options.kind with
    | .console => attrs.set "__name__" (.text "__main__")
    | .library => attrs
  match a.sources with
  | s :: _ => attrs.set "__file__" (.text s.path)
  | [] => attrs

theorem attributes_start {attrs : Bindings Value} (found : m.heap[b.module]? = some (.module attrs)) :
    (start a b m).heap[b.module]? = some (.module (labelled a attrs)) := by
  obtain ⟨name, sources, dependencies, kind, usings, optimize⟩ := a
  have filed {o : Machine} {attrs : Bindings Value} (found : o.heap[b.module]? = some (.module attrs)) :
      ((label ⟨name, sources, dependencies, .library, usings, optimize⟩ b.module).run
        o).2.heap[b.module]? = some (.module
          (labelled ⟨name, sources, dependencies, .library, usings, optimize⟩ attrs)) := by
    cases sources with
    | nil => exact found
    | cons s rest =>
      obtain ⟨o', ran, found'⟩ := run_putAttribute_module found "__file__" (.text s.path)
      change ((putAttribute b.module "__file__" (.text s.path)).run o).2.heap[b.module]? = _
      rw [ran]
      exact found'
  cases kind with
  | library => exact filed (o := m.quiet) found
  | console =>
    obtain ⟨o, ran, found'⟩ :=
      run_putAttribute_module (m := m.quiet) found "__name__" (.text "__main__")
    have kept := filed found'
    rw [start, label]
    dsimp only
    rw [run_bind, ran]
    exact kept

theorem Settled.of_mem_loaded (settled : Settled a b m) {k : Nat} (hk : k ∈ (course a b m).loaded) :
    ∃ name, Dependency.textAttribute? (linked a b m) k "__name__" = some name ∧
      ('.' ∉ name.toList → (name, k) ∈ (course a b m).bindings) := by
  obtain ⟨t, ht, found⟩ := List.mem_filterMap.1 hk
  obtain ⟨d, o, item, ran⟩ := Trial.of_loaded? found
  obtain ⟨name, loaded, kept⟩ := settled.keeps t ht d k o item ran
  refine ⟨name, kept, fun dotless => List.mem_filterMap.2 ⟨t, ht, ?_⟩⟩
  rw [Trial.binding?, item]
  dsimp only
  rw [run_bind, ran]
  dsimp only
  rw [Dependency.run_binding_of_dotless loaded dotless]
  rfl

theorem Settled.get?_linked (settled : Settled a b m) (h : (emit a b).run m = (.ok e, n))
    {bound : Nat} (last : lastOf u (course a b m).bindings = some bound) :
    ((linked a b m).attributes b.module).get? u = some (.object bound) := by
  obtain ⟨left, _, _, _, _, _, hl, -⟩ := (emit_course h).1.gone
  obtain rfl : linked a b m = left := by rw [linked, run_tellLoading.2 hl]
  obtain ⟨attrs, found⟩ := settled.module
  have apart : ∀ t ∈ trials (course a b m).loading, t.Apart b.module [] u :=
    hl.apart settled.well settled.apart
  obtain ⟨globals, there, value⟩ := hl.binds apart (fun t ht => settled.words t ht u)
    ⟨_, attributes_start found, rfl⟩
  rw [Machine.attributes, there]
  dsimp only
  rw [value]
  change ((lastOf u (course a b m).bindings).map Value.object).or _ = _
  rw [last]
  rfl

theorem emit_names (h : (emit a b).run m = (.ok e, n)) (settled : Settled a b m)
    (dotless : '.' ∉ u.toList)
    (known : ∃ k ∈ (course a b m).loaded,
      Dependency.textAttribute? (linked a b m) k "__name__" = some u) :
    ∃ k bound, Named a b m u k bound := by
  obtain ⟨l, hl, own⟩ := known
  obtain ⟨k, first⟩ := exists_firstNamed hl own
  obtain ⟨hk, called⟩ := of_firstNamed first
  have own : (u, k) ∈ (course a b m).bindings := by
    obtain ⟨name, same, bound⟩ := settled.of_mem_loaded hk
    obtain rfl : u = name := Option.some.inj (called.symm.trans same)
    exact bound dotless
  obtain ⟨bound, last⟩ := exists_lastOf own
  refine ⟨k, bound, first, fun t _ _ kept => ?_, last, settled.get?_linked h last,
    fun only => only bound (mem_of_lastOf last)⟩
  have first' : firstNamed t.start u (course a b m).loaded = some k := by
    rw [← first]
    exact List.find?_congr fun l hl => by rw [kept l hl]
  refine run_useOne (run_findNamespace (fun l hl => ?_) first')
  obtain ⟨name, same, -⟩ := settled.of_mem_loaded hl
  exact ⟨name, (kept l hl).trans same⟩

end names

/-- A module that is carried along: its name stands for it in both readings. -/
theorem emit_names_carried :
    let a : Assembly :=
      { name := "kiln.test.Unit", dependencies := [{ name := some "lib", module := some 1 }]
        options := { usings := ["lib"] } }
    let b : Builder := ⟨"kiln.test.Unit", "kiln.test", .runAndCollect, 0⟩
    let m : Machine :=
      { heap := #[.module {}, .module (.ofList [("__name__", .text "lib"), ("x", .int 1)])] }
    Named a b m "lib" 1 1 := by
  intro a b m
  have emitted : ((emit a b).run m).1.toOption.map Emission.diagnostics = some [] := by
    decide +kernel
  obtain ⟨e, n, ran, -⟩ := returned emitted
  have silent : wordings (course a b m).loading = [] :=
    List.isEmpty_iff.1 (by decide +kernel)
  have settled : Settled a b m := settled_of_carried ran rfl (fun d hd => by
    obtain rfl := List.mem_singleton.1 hd
    exact ⟨1, "lib", rfl, by decide, rfl⟩) silent
  obtain ⟨k, bound, named⟩ := emit_names (u := "lib") ran settled (by decide +kernel)
    ⟨1, by decide +kernel, by decide +kernel⟩
  have first : firstNamed (linked a b m) "lib" (course a b m).loaded = some 1 := by decide +kernel
  have last : lastOf "lib" (course a b m).bindings = some 1 := by decide +kernel
  obtain rfl : k = 1 := Option.some.inj (named.first.symm.trans first)
  obtain rfl : bound = 1 := Option.some.inj (named.last.symm.trans last)
  exact named

/-- Two files of one name: as a namespace the name stands for the first, in the module for the
second. -/
theorem emit_misnames :
    let a : Assembly :=
      { name := "kiln.test.Unit"
        dependencies := [{ location := some "/work/one/lib.py" }, { location := some "/work/two/lib.py" }]
        options := { usings := ["lib"] } }
    let b : Builder := ⟨"kiln.test.Unit", "kiln.test", .runAndCollect, 0⟩
    let files : Files :=
      { folders := [["work"], ["work", "one"], ["work", "two"]]
        texts := [(["work", "one", "lib.py"], "x = 1\n"), (["work", "two", "lib.py"], "x = 2\n")] }
    let m : Machine := { heap := #[.module {}], files }
    ((emit a b).run m).1.toOption.map Emission.diagnostics = some [] ∧
      '.' ∉ "lib".toList ∧
      ((course a b m).loaded.map fun k =>
        (k, Dependency.textAttribute? (linked a b m) k "__name__")) =
          [(1, some "lib"), (2, some "lib")] ∧
      ((findNamespace "lib" (course a b m).loaded).run (linked a b m)).1.toOption = some (some 1) ∧
      ((linked a b m).attributes b.module).get? "lib" = some (.object 2) := by
  intro a b files m
  have seen : (((emit a b).run m).1.toOption.map Emission.diagnostics,
      (course a b m).loaded.map fun k => (k, Dependency.textAttribute? (linked a b m) k "__name__"),
      ((findNamespace "lib" (course a b m).loaded).run (linked a b m)).1.toOption,
      (((linked a b m).attributes b.module).get? "lib").any (Value.agrees · (.object 2))) =
      (some [], [(1, some "lib"), (2, some "lib")], some (some 1), true) := by decide +kernel
  simp only [Prod.mk.injEq] at seen
  obtain ⟨emitted, loaded, found, global⟩ := seen
  obtain ⟨v, shown, same⟩ := (Option.any_eq_true _ _).1 global
  exact ⟨emitted, by decide +kernel, loaded, found, by rw [shown, Value.eq_of_agrees same]⟩

end Emission

end Stencil
