import Mathlib.Data.List.Nodup
import Stencil.Proofs.Emission.Restraint

/-!
The public names of a module: those that it lists, as far as it has them, or all that do not begin with
a mark. A module is asked for each of them, and may answer by a function of its own; one without such
a function gives what stands there (`public_of_run`).
-/

namespace Stencil

namespace Bindings

variable {α : Type} {name : String}

theorem find_append (es fs : List (String × α)) (name : String) :
    find (es ++ fs) name = (find es name).or (find fs name) := by
  induction es with
  | nil => rfl
  | cons e rest ih =>
    obtain ⟨k, v⟩ := e
    by_cases same : k = name <;> simp [find, same, ih]

theorem find_eq_none (es : List (String × α)) (absent : name ∉ es.map Prod.fst) :
    find es name = none := by
  induction es with
  | nil => rfl
  | cons e rest ih =>
    rw [List.map_cons, List.mem_cons, not_or] at absent
    rw [find, if_neg (Ne.symm absent.1), ih absent.2]

theorem get?_merge (b c : Bindings α) (name : String) :
    (b.merge c).get? name = (find c.entries.reverse name).or (b.get? name) := by
  obtain ⟨es⟩ := c
  induction es generalizing b with
  | nil => rfl
  | cons e rest ih =>
    obtain ⟨k, v⟩ := e
    change ((b.set k v).merge ⟨rest⟩).get? name = _
    rw [ih, get?_set, List.reverse_cons, find_append, Option.or_assoc]
    by_cases same : k = name <;> simp [find, same]

def Distinct (b : Bindings α) : Prop := b.names.Nodup

theorem mem_names_put {other : String} (es : List (String × α)) (name : String) (v : α) :
    other ∈ (put es name v).map Prod.fst ↔ other = name ∨ other ∈ es.map Prod.fst := by
  induction es with
  | nil => simp [put]
  | cons e rest ih =>
    obtain ⟨k, w⟩ := e
    by_cases same : k = name
    · simp [put, same]
    · rw [put, if_neg same, List.map_cons, List.mem_cons, ih, List.map_cons, List.mem_cons, or_left_comm]

theorem Distinct.set {b : Bindings α} (h : b.Distinct) (name : String) (v : α) :
    (b.set name v).Distinct := by
  obtain ⟨es⟩ := b
  change ((put es name v).map Prod.fst).Nodup
  induction es with
  | nil => exact List.nodup_singleton name
  | cons e rest ih =>
    obtain ⟨k, w⟩ := e
    obtain ⟨apart, others⟩ := List.nodup_cons.1 h
    rw [put]
    split
    · exact h
    · next differs =>
      refine List.nodup_cons.2 ⟨fun member => ?_, ih others⟩
      exact ((mem_names_put rest name v).1 member).elim differs apart

theorem Distinct.merge {b : Bindings α} (h : b.Distinct) (c : Bindings α) : (b.merge c).Distinct := by
  obtain ⟨es⟩ := c
  induction es generalizing b with
  | nil => exact h
  | cons e rest ih => exact ih (h.set e.1 e.2)

theorem distinct_ofList (es : List (String × α)) : (ofList es).Distinct :=
  Distinct.merge (b := {}) List.nodup_nil ⟨es⟩

theorem Distinct.find_reverse {b : Bindings α} (h : b.Distinct) (name : String) :
    find b.entries.reverse name = b.get? name := by
  obtain ⟨es⟩ := b
  induction es with
  | nil => rfl
  | cons e rest ih =>
    obtain ⟨k, v⟩ := e
    obtain ⟨apart, others⟩ := List.nodup_cons.1 h
    rw [List.reverse_cons, find_append]
    change (find rest.reverse name).or (find [(k, v)] name) = find ((k, v) :: rest) name
    rw [show find rest.reverse name = find rest name from ih others]
    by_cases same : k = name
    · subst same
      rw [find_eq_none rest apart]
      simp [find]
    · simp [find, same]

theorem get?_ofList_filterMap (names : List String) (value? : String → Option α) (name : String) :
    (ofList (names.filterMap fun n => (value? n).map (n, ·))).get? name =
      if name ∈ names then value? name else none := by
  have found (names : List String) :
      find (names.filterMap fun n => (value? n).map (n, ·)) name =
        if name ∈ names then value? name else none := by
    induction names with
    | nil => rfl
    | cons n rest ih =>
      cases here : value? n with
      | none =>
        rw [List.filterMap_cons_none (by rw [here]; rfl), ih]
        by_cases same : name = n <;> simp [same, here]
      | some v =>
        rw [List.filterMap_cons_some (by rw [here]; rfl), find, ih]
        by_cases same : n = name
        · simp [← same, here]
        · simp [same, Ne.symm same]
  rw [ofList, get?_merge, ← List.filterMap_reverse, found]
  simp [get?, find]

end Bindings

open Script Run

namespace Script.Run

variable {m n : Machine} {k : Nat} {attrs : Bindings Value} {name : String}

theorem of_run_drain {d : Deeper} {ref index : Nat} {items taken out : List Value} {fuel : Nat}
    (found : m.heap[ref]? = some (.list items))
    (h : (drain d fuel (.list ref index) taken).run m = (.ok out, n)) :
    out = (items.drop index).reverse ++ taken ∧ n = m := by
  induction fuel generalizing index taken with
  | zero => cases h
  | succ fuel ih =>
    rw [drain, advance, bind_assoc, run_bind, run_object_of found] at h
    dsimp only at h
    cases there : items[index]? with
    | none =>
      rw [there] at h
      cases h
      rw [List.drop_eq_nil_of_le (List.getElem?_eq_none_iff.1 there)]
      exact ⟨rfl, rfl⟩
    | some v =>
      rw [there] at h
      obtain ⟨rfl, still⟩ := ih h
      obtain ⟨inside, value⟩ := List.getElem?_eq_some_iff.1 there
      rw [List.drop_eq_getElem_cons inside, value]
      exact ⟨by simp, still⟩

theorem of_run_itemsOf_list {d : Deeper} {ref : Nat} {items out : List Value}
    (found : m.heap[ref]? = some (.list items))
    (h : (itemsOf d (.object ref)).run m = (.ok out, n)) : out = items ∧ n = m := by
  have begun : (start d (.object ref)).run m = (.ok (.list ref 0), m) := by
    rw [start, run_bind, run_object_of found]
    rfl
  unfold itemsOf at h
  dsimp only at h
  rw [run_bind, begun] at h
  dsimp only at h
  obtain ⟨taken, o, ran, h⟩ := of_run_bind h
  cases h
  obtain ⟨rfl, still⟩ := of_run_drain found ran
  exact ⟨by simp, still⟩

theorem run_lookMember_module (d : Deeper) (found : m.heap[k]? = some (.module attrs))
    (silent : attrs.get? "__getattr__" = none) (plain : name ≠ "__class__" ∧ name ≠ "__dict__") :
    (lookMember d (.object k) name).run m = (.ok (attrs.get? name), m) := by
  have own : (member? d (.object k) name).run m = (.ok (attrs.get? name), m) := by
    rw [run_member?_module d found plain.1]
    cases attrs.get? name with
    | some v => rfl
    | none =>
      dsimp only
      rw [if_neg plain.2, silent]
      rfl
  rw [lookMember, handling, run_tryCatch, own]

end Script.Run

namespace Dependency

open Interpreter

/-- How a module offers names: all that do not begin with a mark, or those that it lists. -/
inductive Offers (k : Nat) (m : Machine) : List Value → Machine → Prop
  | all {found : Option Value} {o : Machine}
      (asked : (lookMember top (.object k) "__all__").run m = (.ok found, o))
      (unlisted : found = none ∨ found = some .none) :
      Offers k m (((o.attributes k).names.filter fun n => !n.startsWith "_").map .text) o
  | listed {v : Value} {items : List Value} {o p : Machine}
      (asked : (lookMember top (.object k) "__all__").run m = (.ok (some v), o))
      (something : v ≠ .none) (read : (itemsOf top v).run o = (.ok items, p)) : Offers k m items p

/-- Names that a module is asked for, one after the other, and what it has under those that exist. -/
inductive Exports (k : Nat) : List Value → Machine → List (String × Value) → Machine → Prop
  | nil (m : Machine) : Exports k [] m [] m
  | absent {name : String} {rest : List Value} {m n o : Machine} {es : List (String × Value)}
      (asked : (lookMember top (.object k) name).run m = (.ok none, n))
      (later : Exports k rest n es o) : Exports k (.text name :: rest) m es o
  | present {name : String} {rest : List Value} {m n o p : Machine} {v w : Value}
      {es : List (String × Value)}
      (asked : (lookMember top (.object k) name).run m = (.ok (some w), n))
      (given : (getMember top (.object k) name).run n = (.ok v, o)) (later : Exports k rest o es p) :
      Exports k (.text name :: rest) m ((name, v) :: es) p

section run

variable {m n : Machine} {k : Nat} {items : List Value} {names : Bindings Value}

theorem offers_of_run (h : (offered k).run m = (.ok items, n)) : Offers k m items n := by
  obtain ⟨found, o, asked, h⟩ := of_run_bind h
  have unlisted (h : (get >>= fun m : Machine => (pure
      (((m.attributes k).names.filter fun n => !n.startsWith "_").map Value.text) : Run (List Value))).run
        o = (.ok items, n)) (nothing : found = none ∨ found = some .none) : Offers k m items n := by
    rw [run_bind, run_get] at h
    cases h
    exact .all asked nothing
  cases found with
  | none => exact unlisted h (.inl rfl)
  | some v =>
    cases v with
    | none => exact unlisted h (.inr rfl)
    | _ => exact .listed asked (by rintro ⟨⟩) h

theorem of_run_attributeName {v : Value} {name : String}
    (h : (Basic.attributeName v).run m = (.ok name, n)) : v = .text name ∧ n = m := by
  unfold Basic.attributeName at h
  split at h
  · cases h
    exact ⟨rfl, rfl⟩
  · obtain ⟨kind, _, _, h⟩ := of_run_bind h
    cases h

theorem exports_of_run (h : (publicValues (.object k) items).run m = (.ok names, n)) :
    Exports k items m names.entries n := by
  induction items generalizing m names with
  | nil =>
    cases h
    exact .nil _
  | cons item rest ih =>
    rw [publicValues] at h
    obtain ⟨name, o, named, next⟩ := of_run_bind h
    obtain ⟨rfl, rfl⟩ := of_run_attributeName named
    obtain ⟨found, p, asked, next⟩ := of_run_bind next
    cases found with
    | none => exact .absent asked (ih next)
    | some w =>
      obtain ⟨v, q, given, next⟩ := of_run_bind next
      obtain ⟨others, r, later, last⟩ := of_run_bind next
      cases last
      exact .present asked given (ih later)

end run

section plain

variable {m n : Machine} {k : Nat} {attrs : Bindings Value}

/-- What a module without a function of its own offers on a machine: the texts that it lists, or all of
its names that do not begin with a mark. -/
inductive Lists (m : Machine) (attrs : Bindings Value) : List String → Prop
  | all (unlisted : attrs.get? "__all__" = none ∨ attrs.get? "__all__" = some .none) :
      Lists m attrs (attrs.names.filter fun n => !n.startsWith "_")
  | list {ref : Nat} {names : List String} (listed : attrs.get? "__all__" = some (.object ref))
      (there : m.heap[ref]? = some (.list (names.map .text))) : Lists m attrs names
  | tuple {names : List String} (listed : attrs.get? "__all__" = some (.tuple (names.map .text))) :
      Lists m attrs names

variable (found : m.heap[k]? = some (.module attrs)) (silent : attrs.get? "__getattr__" = none)

include found silent

theorem Offers.lists {names : List String} {items : List Value} (h : Offers k m items n)
    (lists : Lists m attrs names) : items = names.map .text ∧ n = m := by
  have said : (lookMember top (.object k) "__all__").run m = (.ok (attrs.get? "__all__"), m) :=
    run_lookMember_module top found silent (by decide)
  cases h with
  | all asked unlisted =>
    rw [said] at asked
    cases asked
    cases lists with
    | all =>
      rw [Machine.attributes, found]
      exact ⟨rfl, rfl⟩
    | list listed => rw [listed] at unlisted; simp at unlisted
    | tuple listed => rw [listed] at unlisted; simp at unlisted
  | @listed v _ o _ asked something read =>
    rw [said] at asked
    obtain ⟨value, rfl⟩ : attrs.get? "__all__" = some v ∧ m = o := by
      rw [Prod.mk.injEq, Except.ok.injEq] at asked
      exact asked
    cases lists with
    | all unlisted =>
      rw [value] at unlisted
      simp [something] at unlisted
    | list listed there =>
      obtain rfl := Option.some.inj (listed.symm.trans value)
      exact of_run_itemsOf_list there read
    | tuple listed =>
      obtain rfl := Option.some.inj (listed.symm.trans value)
      cases read
      exact ⟨rfl, rfl⟩

theorem Exports.plain {names : List String} {es : List (String × Value)}
    (h : Exports k (names.map .text) m es n)
    (plain : ∀ name ∈ names, name ≠ "__class__" ∧ name ≠ "__dict__") :
    es = names.filterMap (fun name => (attrs.get? name).map (name, ·)) ∧ n = m := by
  induction names generalizing es with
  | nil =>
    cases h
    exact ⟨rfl, rfl⟩
  | cons name rest ih =>
    rw [List.forall_mem_cons] at plain
    have said := run_lookMember_module top found silent plain.1
    cases h with
    | @absent _ _ _ o _ _ asked later =>
      rw [said, Prod.mk.injEq, Except.ok.injEq] at asked
      obtain ⟨missing, rfl⟩ := asked
      obtain ⟨rfl, still⟩ := ih later plain.2
      exact ⟨by rw [List.filterMap_cons_none (by rw [missing]; rfl)], still⟩
    | present asked given later =>
      rw [said, Prod.mk.injEq, Except.ok.injEq] at asked
      obtain ⟨value, rfl⟩ := asked
      rw [getMember, run_bind, run_member?_module top found plain.1.1, value] at given
      cases given
      obtain ⟨rfl, still⟩ := ih later plain.2
      exact ⟨by rw [List.filterMap_cons_some (by rw [value]; rfl)], still⟩

end plain

theorem distinct_of_run {m n : Machine} {k : Nat} {names : Bindings Value}
    (h : (publicNames k).run m = (.ok names, n)) : names.Distinct := by
  obtain ⟨items, o, -, h⟩ := of_run_bind h
  obtain ⟨values, p, -, h⟩ := of_run_bind h
  cases h
  exact Bindings.distinct_ofList _

structure Public (m : Machine) (k : Nat) (names : Bindings Value) : Prop where
  asked : ∃ items o es n, Offers k m items o ∧ Exports k items o es n ∧ names = .ofList es
  /-- A module without a function of its own has those that it offers and that exist. -/
  plain : ∀ attrs listed, m.heap[k]? = some (.module attrs) → attrs.get? "__getattr__" = none →
    Lists m attrs listed → (∀ name ∈ listed, name ≠ "__class__" ∧ name ≠ "__dict__") →
    ∀ name, names.get? name = if name ∈ listed then attrs.get? name else none

theorem public_of_run {m n : Machine} {k : Nat} {names : Bindings Value}
    (h : (publicNames k).run m = (.ok names, n)) : Public m k names := by
  obtain ⟨items, o, offers, h⟩ := of_run_bind h
  obtain ⟨values, p, exports, h⟩ := of_run_bind h
  cases h
  replace offers := offers_of_run offers
  replace exports := exports_of_run exports
  refine ⟨⟨items, o, values.entries, _, offers, exports, rfl⟩, ?_⟩
  intro attrs listed found silent lists plain name
  obtain ⟨rfl, rfl⟩ := offers.lists found silent lists
  obtain ⟨same, -⟩ := exports.plain found silent plain
  rw [same, Bindings.get?_ofList_filterMap]

end Dependency

end Stencil
