import Mathlib.Data.List.Nodup
import Stencil.Datum.Access

/-!
Tables with distinct texts for keys. Fields put over others set what they name where it stands, and bring
what is new behind it, in their order. Setting one key after another does just that, so a table is what
its fields are, in whatever table they are set (`foldl_insert_entriesOf`).
-/

namespace Stencil.Datum

theorem same_text (s t : String) : (text s).same (text t) = (s == t) := by
  rw [same]

section fields

variable {fields others base : List (String × Datum)}

def entriesOf (fields : List (String × Datum)) : List (Datum × Datum) :=
  fields.map fun (k, d) => (text k, d)

theorem find?_entriesOf {isKey : Datum → Bool} {name : String} (h : ∀ k, isKey (text k) = (name == k))
    (fields : List (String × Datum)) :
    ((entriesOf fields).find? fun (k, _) => isKey k).map Prod.snd = fields.lookup name := by
  induction fields with
  | nil => rfl
  | cons f fields ih =>
    rw [entriesOf] at ih ⊢
    rw [List.map_cons, List.find?_cons, List.lookup_cons, ← ih]
    dsimp only
    rw [h f.1]
    cases name == f.1 <;> rfl

theorem get?_ofFields (fields : List (String × Datum)) (name : String) :
    (ofFields fields).get? name = fields.lookup name := by
  have key (k : String) : ((text k).text? == some name) = (name == k) := by
    rw [text?, Option.some_beq_some, Bool.beq_comm]
  exact @find?_entriesOf (fun k => k.text? == some name) name key fields

/-- Fields put over others: a name that is there keeps its place and takes the new value, the other
names follow in their order. -/
def putOver (fields base : List (String × Datum)) : List (String × Datum) :=
  base.map (fun (k, d) => (k, (fields.lookup k).getD d)) ++
    fields.filter fun (k, _) => k ∉ base.map Prod.fst

theorem keys_putOver (fields base : List (String × Datum)) :
    (putOver fields base).map Prod.fst =
      base.map Prod.fst ++ (fields.filter fun (k, _) => k ∉ base.map Prod.fst).map Prod.fst := by
  rw [putOver, List.map_append, List.map_map]
  rfl

theorem nodup_putOver (distinct : (fields.map Prod.fst).Nodup) (before : (base.map Prod.fst).Nodup) :
    ((putOver fields base).map Prod.fst).Nodup := by
  rw [keys_putOver, List.nodup_append]
  refine ⟨before, distinct.sublist (List.filter_sublist.map _), ?_⟩
  rintro k known l new rfl
  obtain ⟨f, member, rfl⟩ := List.mem_map.1 new
  have apart := (List.mem_filter.1 member).2
  exact of_decide_eq_true apart known

theorem forall_mem_putOver {P : Datum → Prop} (each : ∀ f ∈ fields, P f.2)
    (before : ∀ f ∈ base, P f.2) : ∀ f ∈ putOver fields base, P f.2 := by
  intro f member
  obtain kept | new := List.mem_append.1 member
  · obtain ⟨⟨k, d⟩, known, rfl⟩ := List.mem_map.1 kept
    dsimp only
    cases found : fields.lookup k with
    | none => exact before _ known
    | some e =>
      obtain ⟨before, after, rfl, -⟩ := List.lookup_eq_some_iff.1 found
      exact each (k, e) List.mem_append_cons_self
  · exact each f (List.mem_filter.1 new).1

theorem lookup_filter {keep : String × Datum → Bool} {name : String} (h : ∀ d, keep (name, d) = true) :
    (fields.filter keep).lookup name = fields.lookup name := by
  induction fields with
  | nil => rfl
  | cons f fields ih =>
    obtain ⟨k, d⟩ := f
    by_cases same : name = k
    · subst same
      rw [List.filter_cons_of_pos (h d), List.lookup_cons_self, List.lookup_cons_self]
    · rw [List.filter_cons, List.lookup_cons, beq_false_of_ne same]
      split
      · rw [List.lookup_cons, beq_false_of_ne same]
        exact ih
      · exact ih

theorem lookup_putOver (fields base : List (String × Datum)) (name : String) :
    (putOver fields base).lookup name = (fields.lookup name).or (base.lookup name) := by
  have values : (base.map fun (k, d) => (k, (fields.lookup k).getD d)).lookup name =
      (base.lookup name).map fun d => (fields.lookup name).getD d := by
    induction base with
    | nil => rfl
    | cons f base ih =>
      rw [List.map_cons, List.lookup_cons, ih, List.lookup_cons]
      by_cases same : name = f.1
      · subst same
        simp
      · simp [beq_false_of_ne same]
  rw [putOver, List.lookup_append, values]
  cases found : base.lookup name with
  | none =>
    have new : name ∉ base.map Prod.fst := fun known => by
      obtain ⟨f, member, rfl⟩ := List.mem_map.1 known
      simpa using List.lookup_eq_none_iff.1 found f member
    rw [Option.map_none, Option.none_or, Option.or_none]
    exact lookup_filter fun _ => decide_eq_true new
  | some d => cases fields.lookup name <;> rfl

theorem putOver_nil (base : List (String × Datum)) : putOver [] base = base := by
  simp [putOver]

theorem putOver_cons {name : String} {d : Datum} (new : name ∉ fields.map Prod.fst) :
    putOver ((name, d) :: fields) base = putOver fields (putOver [(name, d)] base) := by
  have none : fields.lookup name = none := List.lookup_eq_none_iff.2 fun f member => by
    rw [bne_iff_ne]
    rintro rfl
    exact new (List.mem_map_of_mem member)
  have values : ∀ k e, (((name, d) :: fields).lookup k).getD e =
      (fields.lookup k).getD (([(name, d)].lookup k).getD e) := by
    intro k e
    obtain rfl | differ := eq_or_ne k name
    · simp [none]
    · simp [List.lookup_cons, beq_false_of_ne differ]
  have others : fields.filter (fun (k, _) => k ∉ (putOver [(name, d)] base).map Prod.fst) =
      fields.filter fun (k, _) => k ∉ base.map Prod.fst := by
    refine List.filter_congr fun f member => ?_
    have differ : f.1 ≠ name := fun same => new (same ▸ List.mem_map_of_mem member)
    rw [keys_putOver]
    by_cases known : name ∈ base.map Prod.fst <;> simp [known, differ]
  conv_rhs => rw [putOver, others, putOver, List.map_append, List.map_map, List.append_assoc]
  rw [putOver]
  congr 1
  · exact List.map_congr_left fun f _ => congrArg (Prod.mk f.1) (values f.1 f.2)
  · by_cases known : name ∈ base.map Prod.fst <;> simp [known, none]

theorem insert_entriesOf (base : List (String × Datum)) (name : String) (d : Datum) :
    insert (entriesOf base) (text name) d = entriesOf (putOver [(name, d)] base) := by
  have known : (entriesOf base).any (fun (k, _) => k.same (text name)) =
      decide (name ∈ base.map Prod.fst) := by
    rw [Bool.eq_iff_iff, decide_eq_true_iff]
    simp [entriesOf, same_text]
  rw [insert, known, putOver]
  -- One field either takes an old place or a new one at the end.
  by_cases there : name ∈ base.map Prod.fst
  · have nothing : [(name, d)].filter (fun (k, _) => k ∉ base.map Prod.fst) = [] := by simp [there]
    rw [nothing, List.append_nil, if_pos (decide_eq_true there), entriesOf, entriesOf, List.map_map,
      List.map_map]
    refine List.map_congr_left fun f _ => ?_
    dsimp only [Function.comp_apply]
    rw [same_text, List.lookup_cons]
    cases f.1 == name <;> rfl
  · have all : [(name, d)].filter (fun (k, _) => k ∉ base.map Prod.fst) = [(name, d)] := by
      simp [there]
    have kept : base.map (fun (k, e) => (k, ([(name, d)].lookup k).getD e)) = base := by
      refine (List.map_congr_left fun f member => ?_).trans (List.map_id base)
      have differ : f.1 ≠ name := fun same => there (same ▸ List.mem_map_of_mem member)
      dsimp only
      rw [List.lookup_cons, beq_false_of_ne differ]
      rfl
    rw [all, kept, decide_eq_false there, if_neg Bool.false_ne_true, entriesOf, entriesOf,
      List.map_append]
    rfl

theorem foldl_insert_entriesOf (distinct : (fields.map Prod.fst).Nodup)
    (base : List (String × Datum)) :
    (entriesOf fields).foldl (fun e (k, d) => insert e k d) (entriesOf base) =
      entriesOf (putOver fields base) := by
  induction fields generalizing base with
  | nil =>
    rw [putOver_nil]
    rfl
  | cons f fields ih =>
    rw [List.map_cons, List.nodup_cons] at distinct
    have first := insert_entriesOf base f.1 f.2
    rw [putOver_cons distinct.1, ← ih distinct.2, ← first]
    rfl

theorem tableOf_fields (distinct : (fields.map Prod.fst).Nodup) :
    tableOf (entriesOf fields) = ofFields fields := by
  have none : putOver fields [] = fields := by
    rw [putOver, List.map_nil, List.nil_append, List.map_nil]
    simp
  have made := foldl_insert_entriesOf distinct []
  rw [none] at made
  exact congrArg table made

end fields

end Stencil.Datum
