import Stencil.Proofs.Script.Stop
import Stencil.Script.Import

/-!
Code that leaves modules alone. A machine is intact if the table of modules and the attributes of all
modules that were there before are as they were. Code may add objects, and write to those that are not
among these modules. Questions that are answered from what is on the machine change nothing at all.
-/

namespace Stencil.Script

structure Intact (before m : Machine) : Prop where
  modules : m.modules = before.modules
  attributes : ∀ (ref : Nat) (attrs : Bindings Value), before.heap[ref]? = some (.module attrs) →
    m.heap[ref]? = some (.module attrs)

namespace Intact

variable {before m n : Machine}

theorem refl (m : Machine) : Intact m m := ⟨rfl, fun _ _ h => h⟩

theorem of_eq (h : Intact before m) (heap : n.heap = m.heap) (modules : n.modules = m.modules) :
    Intact before n :=
  ⟨modules.trans h.modules, fun ref attrs found => by rw [heap]; exact h.attributes ref attrs found⟩

theorem quiet (h : Intact before m) : Intact before m.quiet := h.of_eq rfl rfl

theorem push (h : Intact before m) (o : Object) : Intact before { m with heap := m.heap.push o } where
  modules := h.modules
  attributes ref attrs found := by
    have kept := h.attributes ref attrs found
    have inside : ref < m.heap.size := (Array.getElem?_eq_some_iff.1 kept).1
    rw [Array.getElem?_push_lt inside, ← Array.getElem?_eq_getElem inside, kept]

end Intact

def Fresh (before : Machine) (ref : Nat) : Prop := ∀ attrs, before.heap[ref]? ≠ some (.module attrs)

theorem Intact.set {before m : Machine} {ref : Nat} (h : Intact before m) (fresh : Fresh before ref)
    (o : Object) : Intact before { m with heap := m.heap.set! ref o } where
  modules := h.modules
  attributes other attrs found := by
    have apart : ref ≠ other := by
      rintro rfl
      exact fresh attrs found
    rw [Array.set!_eq_setIfInBounds, Array.getElem?_setIfInBounds_ne apart]
    exact h.attributes other attrs found

theorem Intact.fresh {before m : Machine} (h : Intact before m) : Fresh before m.heap.size := by
  intro attrs found
  have kept := h.attributes _ attrs found
  exact Nat.lt_irrefl _ (Array.getElem?_eq_some_iff.1 kept).1

def Value.agrees : Value → Value → Bool
  | none, none => true
  | bool a, bool b => a == b
  | int i, int j => i == j
  | text s, text t => s == t
  | cls c, cls d => c == d
  | object a, object b => a == b
  | _, _ => false

theorem Value.eq_of_agrees {v w : Value} (h : v.agrees w = true) : v = w := by
  unfold agrees at h
  split at h <;> first | rfl | cases h | exact congrArg _ (by simpa using h)

def agreeing : List (String × Value) → List (String × Value) → Bool
  | [], [] => true
  | (k, v) :: rest, (l, w) :: others => k == l && v.agrees w && agreeing rest others
  | _, _ => false

theorem eq_of_agreeing {es fs : List (String × Value)} (h : agreeing es fs = true) : es = fs := by
  fun_induction agreeing es fs with
  | case1 => rfl
  | case2 k v rest l w others ih =>
    simp only [Bool.and_eq_true, beq_iff_eq] at h
    obtain ⟨⟨rfl, same⟩, later⟩ := h
    rw [Value.eq_of_agrees same, ih later]
  | case3 => cases h

def Machine.keeps (before m : Machine) : Bool :=
  agreeing m.modules.entries before.modules.entries &&
    (List.range before.heap.size).all fun ref =>
      match before.heap[ref]? with
      | some (.module attrs) =>
        match m.heap[ref]? with
        | some (.module others) => agreeing others.entries attrs.entries
        | _ => false
      | _ => true

theorem Intact.of_keeps {before m : Machine} (h : before.keeps m = true) : Intact before m := by
  rw [Machine.keeps, Bool.and_eq_true, List.all_eq_true] at h
  refine ⟨congrArg Bindings.mk (eq_of_agreeing h.1), fun ref attrs found => ?_⟩
  have inside : ref < before.heap.size := (Array.getElem?_eq_some_iff.1 found).1
  have kept := h.2 ref (List.mem_range.2 inside)
  rw [found] at kept
  dsimp only at kept
  split at kept
  · next others there =>
    rw [there]
    exact congrArg (fun entries => some (Object.module ⟨entries⟩)) (eq_of_agreeing kept)
  · cases kept

namespace Run

variable {α β : Type} {before m n : Machine}

def Still (code : Run α) (m : Machine) : Prop := (code.run m).2 = m

def Spares (before : Machine) (code : Run α) (m : Machine) : Prop :=
  Intact before m → Intact before (code.run m).2

def Sparing (code : Run α) : Prop := ∀ before m, Spares before code m

section still

theorem Still.run {code : Run α} (h : code.Still m) : ∃ result, code.run m = (result, m) :=
  ⟨(code.run m).1, Prod.ext rfl h⟩

theorem Still.bind {code : Run α} {f : α → Run β} (first : code.Still m)
    (h : ∀ a, (f a).Still m) : (code >>= f).Still m := by
  obtain ⟨result, ran⟩ := first.run
  rw [Still, run_bind, ran]
  cases result with
  | error s => rfl
  | ok a => exact h a

theorem still_pure (a : α) : (pure a : Run α).Still m := rfl

theorem still_throw (s : Stop) : (throw s : Run α).Still m := rfl

theorem still_get : (get : Run Machine).Still m := by rw [Still, run_get]

theorem still_object (ref : Nat) : (object ref).Still m := by rw [Still, run_object]

theorem still_derives (c base : ClassRef) : (derives c base).Still m := by
  obtain ⟨b, ran⟩ := run_derives c base m
  rw [Still, ran]

theorem still_classOf (v : Value) : (classOf v).Still m := by
  cases v with
  | object ref => exact (still_object ref).bind fun o => still_pure _
  | cls c =>
    refine (still_derives c _).bind fun abstract => ?_
    cases abstract <;> exact still_pure _
  | _ => exact still_pure _

theorem still_nameOf (c : ClassRef) : (nameOf c).Still m := by
  cases c with
  | library name => exact still_pure _
  | defined ref =>
    refine (still_object ref).bind fun o => ?_
    cases o <;> exact still_pure _

theorem still_kindOf (v : Value) : (kindOf v).Still m :=
  (still_classOf v).bind fun c => still_nameOf c

theorem run_kindOf (v : Value) (m : Machine) : ∃ kind, (kindOf v).run m = (.ok kind, m) := by
  obtain ⟨kind, n, named⟩ := returns_kindOf v m
  obtain rfl : n = m := by
    have still := still_kindOf (m := m) v
    rwa [Still, named] at still
  exact ⟨kind, named⟩

theorem still_registered? (name : String) : (Import.registered? name).Still m :=
  still_get.bind fun _ => still_pure _

end still

namespace Spares

variable {code : Run α} {f : α → Run β}

theorem of_still (h : code.Still m) : Spares before code m := by
  intro intact
  rwa [h]

theorem bind (first : Spares before code m)
    (h : ∀ a o, code.run m = (.ok a, o) → Spares before (f a) o) : Spares before (code >>= f) m := by
  intro intact
  have kept := first intact
  rw [run_bind]
  rcases hc : code.run m with ⟨s | a, o⟩ <;> rw [hc] at kept
  · exact kept
  · exact h a o hc kept

theorem tryCatch {handler : Stop → Run α} (first : Spares before code m)
    (h : ∀ s o, code.run m = (.error s, o) → Spares before (handler s) o) :
    Spares before (tryCatch code handler) m := by
  intro intact
  have kept := first intact
  rw [run_tryCatch]
  rcases hc : code.run m with ⟨s | a, o⟩ <;> rw [hc] at kept
  · exact h s o hc kept
  · exact kept

theorem guarding {question : Nat → Run Bool} {give : α → β} {turn : Nat → β} {left : Stop → Stop}
    (asks : Asks question) (h : Spares before code m) :
    Spares before (guarding question give turn left code) m := by
  refine tryCatch ?_ fun s o _ => ?_
  · rw [map_eq_pure_bind]
    exact h.bind fun a o _ => of_still (still_pure _)
  · cases s with
    | exhausted => exact of_still (still_throw _)
    | raised error placed =>
      obtain ⟨b, answer⟩ := asks error o
      refine of_still (Still.bind (by rw [Still, answer]) fun b => ?_)
      cases b
      · exact still_throw _
      · exact still_pure _

end Spares

namespace Sparing

variable {code : Run α} {f : α → Run β}

theorem of_still (h : ∀ m, code.Still m) : Sparing code := fun _ m => .of_still (h m)

theorem pure (a : α) : Sparing (Pure.pure a : Run α) := of_still fun _ => still_pure a

theorem bind (first : Sparing code) (h : ∀ a, Sparing (f a)) : Sparing (code >>= f) :=
  fun before m => (first before m).bind fun a o _ => h a before o

theorem guarding {question : Nat → Run Bool} {give : α → β} {turn : Nat → β} {left : Stop → Stop}
    (asks : Asks question) (h : Sparing code) :
    Sparing (guarding question give turn left code) := fun before m => (h before m).guarding asks

end Sparing

theorem sparing_throw (s : Stop) : Sparing (throw s : Run α) := .of_still fun _ => still_throw s

theorem sparing_alloc (o : Object) : Sparing (alloc o) := by
  intro before m intact
  exact (intact.push o).of_eq rfl rfl

theorem spares_alloc_bind {o : Object} {f : Nat → Run β}
    (h : ∀ ref n, Fresh before ref → Spares before (f ref) n) : Spares before (alloc o >>= f) m :=
  fun intact => h _ _ intact.fresh (sparing_alloc o before m intact)

theorem sparing_raiseOf (kind : String) (arguments : List Value) :
    Sparing (raiseOf kind arguments : Run α) :=
  (sparing_alloc _).bind fun _ => sparing_throw _

theorem sparing_raiseKind (kind : String) (v : Value) (message : String → String) :
    Sparing (do raise kind (message (← kindOf v)) : Run α) :=
  (Sparing.of_still fun _ => still_kindOf v).bind fun _ => sparing_raiseOf _ _

theorem spares_modifyHeap {ref : Nat} (fresh : Fresh before ref) (o : Object) :
    Spares before (modifyHeap ref o) m :=
  fun intact => (intact.set fresh o).of_eq rfl rfl

theorem spares_putAttribute {ref : Nat} (fresh : Fresh before ref) (name : String) (v : Value) :
    Spares before (putAttribute ref name v) m := by
  refine Spares.bind (.of_still (still_object ref)) fun o n _ => ?_
  split <;> first | exact spares_modifyHeap fresh _ | exact .of_still (still_pure _)

theorem sparing_issue (category text file : String) (line : Int) :
    Sparing (issue category text file line) := fun _ _ intact => intact.of_eq rfl rfl

end Run

namespace Import

open Run

theorem sparing_fail {α : Type} (kind message : String) (name : Value) :
    Sparing (fail kind message name : Run α) :=
  (sparing_alloc _).bind fun _ => sparing_throw _

theorem sparing_find (depth : Nat) (name : String) : Sparing (find depth name) := by
  induction depth generalizing name with
  | zero => exact sparing_fail _ _ _
  | succ depth ih =>
    have missing (inside : Bool) (message : String) : Sparing
        (if inside then notFound name else fail "ModuleNotFoundError" message (.text name) :
          Run Value) := by
      cases inside <;> exact sparing_fail _ _ _
    refine Sparing.bind (.of_still fun _ => still_registered? name) fun found => ?_
    split
    · exact sparing_fail _ _ _
    · exact .pure _
    · dsimp only
      split
      · exact sparing_fail _ _ _
      · refine Sparing.bind (.of_still fun _ => still_registered? _) fun package => ?_
        -- the package is there, or is looked for; then what is missing is told by its kind
        rcases package with _ | v
        case' none => refine (ih _).bind fun v => ?_
        case' some => refine (Sparing.pure v).bind fun v => ?_
        all_goals
          split
          · exact (Sparing.of_still fun _ => still_get).bind fun _ => missing _ _
          · exact missing false _

end Import

end Stencil.Script
