import Mathlib.Data.List.Forall2
import Stencil.Proofs.TypeTerm.Shape

/-!
Types that differ in spelling only: of two such types one may have classes where the other one has
aliases of them (`Alike`). Types that are the same stay so without their spelling, and what is built of
types that differ in spelling only does so too, unless a union keeps two members apart that differ in
nothing else (`Alike.unionOf`, `Alike.substitute`, `Alike.apply`).
-/

namespace Stencil.TypeTerm

def isLeaf : TypeTerm → Bool
  | aliasOf _ _ | applied _ _ _ | union _ _ | items _ | value (.text _) => false
  | _ => true

/-- Types of which the second one may have classes where the first one has aliases of them. The tag of
annotations is part of what a type is. -/
inductive Alike : TypeTerm → TypeTerm → Prop
  | leaf {t : TypeTerm} (h : t.isLeaf = true) : Alike t t
  | sameAlias {name : String} {origin : TypeTerm} (h : aliasOrigins.lookup name = some origin) :
      Alike (aliasOf name origin) (aliasOf name origin)
  | ownClass {name cls : String} (h : aliasOrigins.lookup name = some (builtin cls)) :
      Alike (aliasOf name (builtin cls)) (builtin cls)
  | absent : Alike noneClass none
  | applied {spelled spelled' : Option String} (origin : TypeTerm) {as bs : List TypeTerm}
      (tag : spelled = some "Annotated" ↔ spelled' = some "Annotated") (size : as.length = bs.length)
      (each : ∀ a b, (a, b) ∈ as.zip bs → Alike a b) :
      Alike (applied spelled origin as) (applied spelled' origin bs)
  | union (style style' : UnionStyle) {as bs : List TypeTerm} (flat : ∀ a ∈ as, members a = [a])
      (flat' : ∀ b ∈ bs, members b = [b]) (size : as.length = bs.length)
      (each : ∀ a b, (a, b) ∈ as.zip bs → Alike a b) : Alike (union style as) (union style' bs)
  | items {as bs : List TypeTerm} (size : as.length = bs.length)
      (each : ∀ a b, (a, b) ∈ as.zip bs → Alike a b) : Alike (items as) (items bs)

section pairs

variable {α β : Type} {R : α → β → Prop} {l : List α} {m : List β}

theorem forall₂_of_zip (size : l.length = m.length) (each : ∀ a b, (a, b) ∈ l.zip m → R a b) :
    List.Forall₂ R l m :=
  List.forall₂_iff_zip.2 ⟨size, fun {a b} h => each a b h⟩

theorem exists_of_mem_left (h : List.Forall₂ R l m) {a : α} (ha : a ∈ l) : ∃ b ∈ m, R a b := by
  induction h with
  | nil => cases ha
  | cons first rest ih =>
    obtain rfl | ha := List.mem_cons.1 ha
    · exact ⟨_, List.mem_cons_self, first⟩
    · obtain ⟨b, hb, related⟩ := ih ha
      exact ⟨b, List.mem_cons_of_mem _ hb, related⟩

theorem map_eq_map_of_forall₂ {γ : Type} {f : α → γ} {g : β → γ}
    (h : List.Forall₂ (fun a b => f a = g b) l m) : l.map f = m.map g := by
  induction h with
  | nil => rfl
  | cons first rest ih => rw [List.map_cons, List.map_cons, first, ih]

end pairs

section alike

variable {t u : TypeTerm} {as bs : List TypeTerm}

theorem Alike.ofApplied {spelled spelled' : Option String} (origin : TypeTerm)
    (tag : spelled = some "Annotated" ↔ spelled' = some "Annotated") (h : List.Forall₂ Alike as bs) :
    Alike (TypeTerm.applied spelled origin as) (TypeTerm.applied spelled' origin bs) :=
  .applied origin tag h.length_eq fun _ _ within => (List.forall₂_iff_zip.1 h).2 within

theorem Alike.ofUnion (style style' : UnionStyle) (flat : ∀ a ∈ as, members a = [a])
    (flat' : ∀ b ∈ bs, members b = [b]) (h : List.Forall₂ Alike as bs) :
    Alike (TypeTerm.union style as) (TypeTerm.union style' bs) :=
  .union style style' flat flat' h.length_eq fun _ _ within => (List.forall₂_iff_zip.1 h).2 within

theorem Alike.ofItems (h : List.Forall₂ Alike as bs) :
    Alike (TypeTerm.items as) (TypeTerm.items bs) :=
  .items h.length_eq fun _ _ within => (List.forall₂_iff_zip.1 h).2 within

theorem Alike.unspelled_eq (h : Alike t u) : unspelled t = unspelled u := by
  induction h with
  | leaf | sameAlias | ownClass | absent => rfl
  | applied origin tag size each ih | union style style' flat flat' size each ih | items size each ih =>
    simp only [unspelled, unspelledItems_eq_map, map_eq_map_of_forall₂ (forall₂_of_zip size ih)]

theorem Alike.right (h : Alike t u) : Alike u u := by
  have diagonal {as bs : List TypeTerm} (size : as.length = bs.length)
      (ih : ∀ a b, (a, b) ∈ as.zip bs → Alike b b) : List.Forall₂ Alike bs bs := by
    refine List.forall₂_same.2 fun b hb => ?_
    obtain ⟨a, -, same⟩ := exists_of_mem_left (forall₂_of_zip size ih).flip hb
    exact same
  induction h with
  | leaf h => exact .leaf h
  | sameAlias h => exact .sameAlias h
  | ownClass | absent => exact .leaf rfl
  | applied origin tag size each ih => exact .ofApplied origin Iff.rfl (diagonal size ih)
  | union style style' flat flat' size each ih =>
    exact .ofUnion style' style' flat' flat' (diagonal size ih)
  | items size each ih => exact .ofItems (diagonal size ih)

theorem Alike.members (h : Alike t u) :
    List.Forall₂ Alike t.members u.members ∧ (∀ x ∈ t.members, x.members = [x]) ∧
      ∀ x ∈ u.members, x.members = [x] := by
  have alone {t u : TypeTerm} (h : Alike t u) (ht : t.members = [t]) (hu : u.members = [u]) :
      List.Forall₂ Alike [t] [u] ∧ (∀ x ∈ [t], x.members = [x]) ∧ ∀ x ∈ [u], x.members = [x] := by
    simpa using ⟨h, ht, hu⟩
  cases h with
  | union style style' flat flat' size each => exact ⟨forall₂_of_zip size each, flat, flat'⟩
  | absent => exact alone (.leaf (t := noneClass) rfl) rfl rfl
  | leaf h =>
    cases t with
    | none => exact alone (.leaf (t := noneClass) rfl) rfl rfl
    | union | applied | aliasOf | items => cases h
    | _ => exact alone (.leaf h) rfl rfl
  | sameAlias h => exact alone (.sameAlias h) rfl rfl
  | ownClass h => exact alone (.ownClass h) rfl rfl
  | applied origin tag size each => exact alone (.applied origin tag size each) rfl rfl
  | items size each => exact alone (.items size each) rfl rfl

theorem argument_eq_self_or (t : TypeTerm) :
    (∃ s, t = value (.text s)) ∨ t = none ∨ TypeTerm.argument t = t := by
  unfold TypeTerm.argument
  split
  · exact .inl ⟨_, rfl⟩
  · exact .inr (.inl rfl)
  · exact .inr (.inr rfl)

theorem Alike.argument_left (h : Alike t u) : Alike (argument t) u := by
  obtain ⟨s, rfl⟩ | rfl | same := argument_eq_self_or t
  · cases h with
    | leaf h => cases h
  · cases h
    exact .absent
  · rwa [same]

theorem Alike.argument (h : Alike t u) : Alike (argument t) (argument u) := by
  obtain ⟨s, rfl⟩ | rfl | same := argument_eq_self_or u
  · cases h with
    | leaf h => cases h
  · cases h <;> exact .leaf rfl
  · rw [same]
    exact h.argument_left

theorem Alike.typeVariables_eq (h : Alike t u) : t.typeVariables = u.typeVariables := by
  have lists {as bs : List TypeTerm}
      (h : List.Forall₂ (fun a b => typeVariables a = typeVariables b) as bs) :
      variablesOf as = variablesOf bs := by
    induction h with
    | nil => rfl
    | cons first rest ih => rw [variablesOf, variablesOf, first, ih]
  induction h with
  | leaf | sameAlias | ownClass | absent => rfl
  | applied origin tag size each ih | union style style' flat flat' size each ih | items size each ih =>
    exact lists (forall₂_of_zip size ih)

end alike

/-! Types that are the same. -/

section same

theorem sameItems_map {f : TypeTerm → TypeTerm} {ts us : List TypeTerm}
    (each : ∀ t ∈ ts, ∀ u ∈ us, same t u = true → same (f t) (f u) = true)
    (h : sameItems ts us = true) : sameItems (ts.map f) (us.map f) = true := by
  induction ts generalizing us with
  | nil =>
    cases us with
    | nil => rfl
    | cons => cases h
  | cons t ts ih =>
    cases us with
    | nil => cases h
    | cons u us =>
      rw [sameItems, Bool.and_eq_true] at h
      rw [List.map_cons, List.map_cons, sameItems, Bool.and_eq_true]
      exact ⟨each t List.mem_cons_self u List.mem_cons_self h.1,
        ih (fun t ht u hu => each t (List.mem_cons_of_mem _ ht) u (List.mem_cons_of_mem _ hu)) h.2⟩

theorem within_map {f : TypeTerm → TypeTerm} {ts us : List TypeTerm}
    (each : ∀ t ∈ ts, ∀ u ∈ us, same t u = true → same (f t) (f u) = true)
    (h : within ts us = true) : within (ts.map f) (us.map f) = true := by
  induction ts with
  | nil => rfl
  | cons t ts ih =>
    rw [within, Bool.and_eq_true, List.any_eq_true] at h
    obtain ⟨⟨u, hu, same⟩, rest⟩ := h
    rw [List.map_cons, within, Bool.and_eq_true, List.any_eq_true]
    exact ⟨⟨f u, List.mem_map_of_mem hu, each t List.mem_cons_self u hu same⟩,
      ih (fun t ht => each t (List.mem_cons_of_mem _ ht)) rest⟩

theorem mem_aliasOrigins {name : String} {origin : TypeTerm}
    (h : aliasOrigins.lookup name = some origin) : (name, origin) ∈ aliasOrigins := by
  obtain ⟨front, back, whole, -⟩ := List.lookup_eq_some_iff.1 h
  exact whole ▸ List.mem_append_right front List.mem_cons_self

theorem same_origin : ∀ entry ∈ aliasOrigins, same entry.2 entry.2 = true := by decide

theorem Alike.lookup_eq {name : String} {origin u : TypeTerm} (h : Alike (aliasOf name origin) u) :
    aliasOrigins.lookup name = some origin := by
  cases h with
  | leaf h => cases h
  | sameAlias h => exact h
  | ownClass h => exact h

theorem same_aliasOf {name name' : String} {origin origin' : TypeTerm}
    (known : aliasOrigins.lookup name = some origin) (known' : aliasOrigins.lookup name' = some origin')
    (h : same (aliasOf name origin) (aliasOf name' origin') = true) : same origin origin' = true := by
  obtain rfl : name = name' := by simpa [same] using h
  obtain rfl := Option.some.inj (known.symm.trans known')
  exact same_origin _ (mem_aliasOrigins known)

theorem unspelled_of_same_leaf {t u : TypeTerm} (leaf : t.isLeaf = true) (h : same t u = true) :
    t = noneClass ∧ u = noneClass ∨ unspelled t = t ∧ unspelled u = u := by
  cases t <;> cases u <;>
    first | exact .inr ⟨rfl, rfl⟩ | exact .inl ⟨rfl, rfl⟩ | cases h | exact nomatch leaf

theorem Alike.same_unspelled {t t' u u' : TypeTerm} (ht : Alike t t') (hu : Alike u u')
    (h : same t u = true) : same (unspelled t) (unspelled u) = true := by
  have lists {as as' bs bs' : List TypeTerm}
      (ih : List.Forall₂ (fun a _ => ∀ {b b'}, Alike b b' → same a b = true →
        same (unspelled a) (unspelled b) = true) as as') (hb : List.Forall₂ Alike bs bs') :
      ∀ a ∈ as, ∀ b ∈ bs, same a b = true → same (unspelled a) (unspelled b) = true := by
    intro a ha b hb'
    obtain ⟨-, -, each⟩ := exists_of_mem_left ih ha
    obtain ⟨b', -, alike⟩ := exists_of_mem_left hb hb'
    exact each alike
  induction ht generalizing u u' with
  | leaf leaf =>
    obtain ⟨rfl, rfl⟩ | ⟨own, own'⟩ := unspelled_of_same_leaf leaf h
    · rfl
    · rwa [own, own']
  | sameAlias known | ownClass known =>
    cases u with
    | aliasOf => exact same_aliasOf known hu.lookup_eq h
    | _ => cases h
  | absent =>
    cases u with
    | noneClass => rfl
    | _ => cases h
  | applied origin tag size each ih =>
    cases u with
    | applied =>
      cases hu with
      | leaf leaf => cases leaf
      | applied _ _ size' each' =>
        simp only [same, Bool.and_eq_true] at h
        simp only [unspelled, unspelledItems_eq_map, same, Bool.and_eq_true]
        exact ⟨⟨rfl, h.1.2⟩,
          sameItems_map (lists (forall₂_of_zip size ih) (forall₂_of_zip size' each')) h.2⟩
    | _ => cases h
  | union style style' flat flat' size each ih =>
    cases u with
    | union =>
      cases hu with
      | leaf leaf => cases leaf
      | union _ _ _ _ size' each' =>
        simp only [same, Bool.and_eq_true] at h
        simp only [unspelled, unspelledItems_eq_map, same, Bool.and_eq_true, List.length_map]
        exact ⟨h.1, within_map (lists (forall₂_of_zip size ih) (forall₂_of_zip size' each')) h.2⟩
    | _ => cases h
  | items size each ih =>
    cases u with
    | items =>
      cases hu with
      | leaf leaf => cases leaf
      | items size' each' =>
        simp only [same] at h
        simp only [unspelled, unspelledItems_eq_map, same]
        exact sameItems_map (lists (forall₂_of_zip size ih) (forall₂_of_zip size' each')) h
    | _ => cases h

end same

/-! Unions. -/

section unions

variable {t u : TypeTerm} {ts us : List TypeTerm}

def addType (kept : List TypeTerm) (t : TypeTerm) : List TypeTerm :=
  if kept.any (t.same ·) then kept else kept ++ [t]

theorem dropRepeats_eq (ts : List TypeTerm) : dropRepeats ts = ts.foldl addType [] := rfl

theorem isPrefix_foldl_addType (ts kept : List TypeTerm) : kept <+: ts.foldl addType kept := by
  induction ts generalizing kept with
  | nil => exact List.prefix_rfl
  | cons t ts ih =>
    refine List.IsPrefix.trans ?_ (ih (addType kept t))
    unfold addType
    split
    · exact List.prefix_rfl
    · exact List.prefix_append kept [t]

def Apart (ts : List TypeTerm) : Prop :=
  ts.Pairwise fun t u => ¬ same (unspelled u) (unspelled t) = true

instance (ts : List TypeTerm) : Decidable (Apart ts) :=
  inferInstanceAs (Decidable (ts.Pairwise _))

theorem not_same_of_apart {kept : List TypeTerm} (h : Apart (ts.foldl addType (kept ++ [t]))) :
    ∀ k ∈ kept, ¬ same (unspelled t) (unspelled k) = true := by
  intro k hk
  have front : Apart (kept ++ [t]) := h.sublist (isPrefix_foldl_addType ts (kept ++ [t])).sublist
  exact (List.pairwise_append.1 front).2.2 k hk t (List.mem_singleton_self t)

theorem forall₂_foldl_addType {kept kept' : List TypeTerm} (hk : List.Forall₂ Alike kept kept')
    (h : List.Forall₂ Alike ts us) (apart : Apart (ts.foldl addType kept))
    (apart' : Apart (us.foldl addType kept')) :
    List.Forall₂ Alike (ts.foldl addType kept) (us.foldl addType kept') := by
  induction h generalizing kept kept' with
  | nil => exact hk
  | @cons t u ts us first rest ih =>
    rw [List.foldl_cons] at apart apart' ⊢
    rw [List.foldl_cons]
    refine ih ?_ apart apart'
    unfold addType at apart apart' ⊢
    split_ifs at apart apart' ⊢ with known known' known'
    · exact hk
    · obtain ⟨k, mem, same⟩ := List.any_eq_true.1 known
      obtain ⟨k', mem', alike⟩ := exists_of_mem_left hk mem
      have plain := first.same_unspelled alike same
      rw [first.unspelled_eq, alike.unspelled_eq] at plain
      exact absurd plain (not_same_of_apart apart' k' mem')
    · obtain ⟨k', mem', same⟩ := List.any_eq_true.1 known'
      obtain ⟨k, mem, alike⟩ := exists_of_mem_left hk.flip mem'
      have plain := first.right.same_unspelled alike.right same
      rw [← first.unspelled_eq, ← alike.unspelled_eq] at plain
      exact absurd plain (not_same_of_apart apart k mem)
    · exact List.rel_append hk (.cons first .nil)

def tidy (ts : List TypeTerm) : Bool :=
  decide (Apart (dropRepeats (ts.flatMap members)))

def Flat (ts : List TypeTerm) : Prop := ∀ t ∈ ts, ∀ x ∈ members t, members x = [x]

theorem flat_of_alike (h : List.Forall₂ Alike ts us) : Flat ts ∧ Flat us := by
  refine ⟨fun t ht => ?_, fun u hu => ?_⟩
  · obtain ⟨u, -, alike⟩ := exists_of_mem_left h ht
    exact alike.members.2.1
  · obtain ⟨t, -, alike⟩ := exists_of_mem_left h.flip hu
    exact alike.members.2.2

theorem Flat.members_eq (flat : Flat ts) {x : TypeTerm}
    (hx : x ∈ dropRepeats (ts.flatMap members)) : members x = [x] := by
  obtain ⟨t, ht, within⟩ := List.mem_flatMap.1 (mem_of_mem_dropRepeats hx)
  exact flat t ht x within

theorem Alike.unionOf (style style' : UnionStyle) (h : List.Forall₂ Alike ts us)
    (neat : tidy ts = true) (neat' : tidy us = true) :
    Alike (unionOf style ts) (unionOf style' us) := by
  obtain ⟨flat, flat'⟩ := flat_of_alike h
  have parts : List.Forall₂ Alike (ts.flatMap TypeTerm.members) (us.flatMap TypeTerm.members) :=
    List.rel_flatMap h fun _ _ alike => alike.members.1
  have kept := forall₂_foldl_addType .nil parts (of_decide_eq_true neat) (of_decide_eq_true neat')
  rw [← dropRepeats_eq, ← dropRepeats_eq] at kept
  have single := fun x => flat.members_eq (x := x)
  have single' := fun x => flat'.members_eq (x := x)
  unfold TypeTerm.unionOf
  generalize dropRepeats (ts.flatMap TypeTerm.members) = ts at kept single
  generalize dropRepeats (us.flatMap TypeTerm.members) = us at kept single'
  cases kept with
  | nil => exact .ofUnion style style' single single' .nil
  | cons first rest =>
    cases rest with
    | nil => exact first
    | cons second rest =>
      exact .ofUnion style style' single single' (.cons first (.cons second rest))

theorem foldl_addType_of_pairwise {kept : List TypeTerm}
    (h : (kept ++ ts).Pairwise fun t u => ¬ same u t = true) : ts.foldl addType kept = kept ++ ts := by
  induction ts generalizing kept with
  | nil => rw [List.append_nil]; rfl
  | cons t ts ih =>
    have new : kept.any (t.same ·) = false := by
      rw [List.any_eq_false]
      intro k hk
      exact (List.pairwise_append.1 h).2.2 k hk t List.mem_cons_self
    have step : addType kept t = kept ++ [t] := by rw [addType, new]; rfl
    rw [List.append_cons] at h ⊢
    rw [List.foldl_cons, step, ih h]

theorem pairwise_foldl_addType {kept : List TypeTerm}
    (h : kept.Pairwise fun t u => ¬ same u t = true) :
    (ts.foldl addType kept).Pairwise fun t u => ¬ same u t = true := by
  induction ts generalizing kept with
  | nil => exact h
  | cons t ts ih =>
    refine ih ?_
    unfold addType
    split_ifs with known
    · exact h
    · refine List.pairwise_append.2 ⟨h, List.pairwise_singleton _ t, fun k hk u hu => ?_⟩
      rw [List.mem_singleton.1 hu]
      exact fun same => known (List.any_eq_true.2 ⟨k, hk, same⟩)

theorem dropRepeats_append (ts us : List TypeTerm) :
    dropRepeats (dropRepeats ts ++ us) = dropRepeats (ts ++ us) := by
  have again : (dropRepeats ts).foldl addType [] = dropRepeats ts :=
    foldl_addType_of_pairwise (pairwise_foldl_addType .nil)
  rw [dropRepeats_eq, List.foldl_append, again, dropRepeats_eq, dropRepeats_eq, List.foldl_append]

theorem members_unionOf (style : UnionStyle) (flat : Flat ts) :
    members (unionOf style ts) = dropRepeats (ts.flatMap members) := by
  unfold unionOf
  split
  · rename_i x only
    rw [only]
    exact flat.members_eq (only ▸ List.mem_singleton_self x)
  · rfl

theorem exists_foldl_bar_eq (first second : TypeTerm) (rest : List TypeTerm)
    (flat : Flat (first :: second :: rest)) :
    ∃ style, (second :: rest).foldl bar first = unionOf style (first :: second :: rest) := by
  induction rest generalizing first second with
  | nil => exact ⟨_, rfl⟩
  | cons third rest ih =>
    have two : Flat [first, second] := fun t ht => flat t (List.mem_append_left (third :: rest) ht)
    have joined : Flat (bar first second :: third :: rest) := by
      intro t ht x hx
      obtain rfl | ht := List.mem_cons.1 ht
      · rw [bar, members_unionOf _ two] at hx
        exact two.members_eq hx
      · exact flat t (List.mem_append_right [first, second] ht) x hx
    obtain ⟨style, same⟩ := ih (bar first second) third joined
    refine ⟨style, ?_⟩
    rw [List.foldl_cons, same, unionOf, unionOf, List.flatMap_cons, bar, members_unionOf _ two,
      dropRepeats_append]
    simp

end unions

/-! Type variables. -/

section substitution

mutual

def tidyIn (values : List (String × TypeTerm)) : TypeTerm → Bool
  | applied _ _ as => tidyInAll values as
  | union _ as => tidyInAll values as && tidy (substituteItems values as)
  | items as => tidyInAll values as
  | _ => true

def tidyInAll (values : List (String × TypeTerm)) : List TypeTerm → Bool
  | [] => true
  | t :: ts => tidyIn values t && tidyInAll values ts

end

variable {t u : TypeTerm} {as bs : List TypeTerm}

theorem alike_lookup (names : List String) (name : String) (h : List.Forall₂ Alike as bs) :
    Alike (((names.zip as).lookup name).getD (free name))
      (((names.zip bs).lookup name).getD (free name)) := by
  induction h generalizing names with
  | nil =>
    rw [List.zip_nil_right]
    exact .leaf rfl
  | cons first rest ih =>
    cases names with
    | nil => exact .leaf rfl
    | cons n names =>
      simp only [List.zip_cons_cons, List.lookup_cons]
      split
      · exact first
      · exact ih names

theorem Alike.substitute (names : List String) (values : List.Forall₂ Alike as bs) (h : Alike t u)
    (neat : tidyIn (names.zip as) t = true) (neat' : tidyIn (names.zip bs) u = true) :
    Alike (substitute (names.zip as) t) (substitute (names.zip bs) u) := by
  have lists {ts us : List TypeTerm}
      (ih : List.Forall₂ (fun t u => tidyIn (names.zip as) t = true → tidyIn (names.zip bs) u = true →
        Alike (TypeTerm.substitute (names.zip as) t) (TypeTerm.substitute (names.zip bs) u)) ts us)
      (neat : tidyInAll (names.zip as) ts = true) (neat' : tidyInAll (names.zip bs) us = true) :
      List.Forall₂ Alike (substituteItems (names.zip as) ts) (substituteItems (names.zip bs) us) := by
    induction ih with
    | nil => exact .nil
    | cons first rest ih =>
      rw [tidyInAll, Bool.and_eq_true] at neat neat'
      exact .cons (first neat.1 neat'.1) (ih neat.2 neat'.2)
  induction h with
  | leaf h =>
    rename_i t
    cases t with
    | free name => exact alike_lookup names name values
    | applied | union | items | aliasOf => cases h
    | _ => exact .leaf h
  | sameAlias known => exact .sameAlias known
  | ownClass known => exact .ownClass known
  | absent => exact .absent
  | applied origin tag size each ih =>
    exact .ofApplied origin tag (lists (forall₂_of_zip size ih) neat neat')
  | union style style' flat flat' size each ih =>
    rw [tidyIn, Bool.and_eq_true] at neat neat'
    exact Alike.unionOf style style' (lists (forall₂_of_zip size ih) neat.1 neat'.1) neat.2 neat'.2
  | items size each ih => exact .ofItems (lists (forall₂_of_zip size ih) neat neat')

end substitution

/-! Definitions with arguments. -/

section application

variable {d d' : TypeTerm} {as bs : List TypeTerm}

def tidyApply (definition : TypeTerm) (as : List TypeTerm) : Bool :=
  match definition with
  | form "Optional" => tidy (as.map argument ++ [noneClass])
  | form "Union" => tidy (as.map argument)
  | applied _ _ _ | union _ _ => tidyIn (definition.typeVariables.zip (as.map argument)) definition
  | _ => true

theorem forall₂_argument (h : List.Forall₂ Alike as bs) :
    List.Forall₂ Alike (as.map argument) (bs.map argument) :=
  List.rel_map (fun _ _ alike => alike.argument) h

theorem Alike.applyForm {name : String} (args : List.Forall₂ Alike as bs)
    (neat : tidyApply (form name) as = true) (neat' : tidyApply (form name) bs = true) :
    Alike ((form name).apply as) ((form name).apply bs) := by
  have arguments := forall₂_argument args
  by_cases optional : name = "Optional"
  · subst optional
    have class_ : Alike noneClass noneClass := .leaf rfl
    exact Alike.unionOf .named .named (List.rel_append arguments (.cons class_ .nil)) neat neat'
  by_cases union : name = "Union"
  · subst union
    exact Alike.unionOf .named .named arguments neat neat'
  have plain (as : List TypeTerm) :
      (form name).apply as = TypeTerm.applied (some name) (form name) (as.map TypeTerm.argument) := by
    unfold TypeTerm.apply
    split <;> simp_all
  rw [plain, plain]
  exact .ofApplied _ Iff.rfl arguments

theorem callableArguments_cases (as : List TypeTerm) :
    (∃ ts r, as = [TypeTerm.items ts, r]) ∨
      (∀ ts r, as ≠ [TypeTerm.items ts, r]) ∧ callableArguments as = as.map argument := by
  unfold callableArguments
  split
  · exact .inl ⟨_, _, rfl⟩
  · exact .inr ⟨by assumption, rfl⟩

theorem forall₂_callableArguments (args : List.Forall₂ Alike as bs) :
    List.Forall₂ Alike (callableArguments as) (callableArguments bs) := by
  obtain ⟨ts, r, rfl⟩ | ⟨other, plain⟩ := callableArguments_cases as
  · obtain _ | ⟨first, _ | ⟨second, _ | _⟩⟩ := args
    cases first with
    | leaf leaf => cases leaf
    | items size each =>
      exact .cons (.ofItems (forall₂_argument (forall₂_of_zip size each))) (.cons second.argument .nil)
  · obtain ⟨us, r', rfl⟩ | ⟨-, plain'⟩ := callableArguments_cases bs
    · obtain _ | ⟨first, _ | ⟨second, _ | _⟩⟩ := args
      cases first with
      | leaf leaf => cases leaf
      | items => exact absurd rfl (other _ _)
    · rw [plain, plain']
      exact forall₂_argument args

theorem apply_aliasOf {name : String} (origin : TypeTerm) (h : name ≠ "Callable")
    (as : List TypeTerm) :
    (aliasOf name origin).apply as = applied (some name) origin (as.map argument) := by
  unfold apply
  split <;> simp_all

theorem Alike.applyAlias (name : String) (origin : TypeTerm) (args : List.Forall₂ Alike as bs) :
    Alike ((aliasOf name origin).apply as) ((aliasOf name origin).apply bs) := by
  by_cases callable : name = "Callable"
  · subst callable
    exact .ofApplied _ Iff.rfl (forall₂_callableArguments args)
  · rw [apply_aliasOf origin callable, apply_aliasOf origin callable]
    exact .ofApplied _ Iff.rfl (forall₂_argument args)

theorem Alike.applyClass {name cls : String} (known : aliasOrigins.lookup name = some (builtin cls))
    (args : List.Forall₂ Alike as bs) :
    Alike ((aliasOf name (builtin cls)).apply as) ((builtin cls).apply bs) := by
  have callable : name ≠ "Callable" := by
    rintro rfl
    cases known
  have annotated : name ≠ "Annotated" := by
    rintro rfl
    cases known
  have arguments : List.Forall₂ Alike (as.map TypeTerm.argument) bs :=
    List.forall₂_map_left_iff.2 (args.imp fun _ _ alike => alike.argument_left)
  rw [apply_aliasOf _ callable]
  exact .ofApplied _ (by simp [annotated]) arguments

theorem Alike.applyAnnotated (vs : List String) (bases : List TypeTerm)
    (args : List.Forall₂ Alike as bs) :
    Alike ((named (some "typing") "Annotated" vs bases).apply as)
      ((named (some "typing") "Annotated" vs bases).apply bs) := by
  have fresh {t : TypeTerm} (notes : List TypeTerm)
      (h : ∀ o inner, t ≠ TypeTerm.applied (some "Annotated") o inner) :
      (named (some "typing") "Annotated" vs bases).apply (t :: notes) =
        TypeTerm.applied (some "Annotated") annotated (TypeTerm.argument t :: notes) := by
    simp only [TypeTerm.apply]
  cases args with
  | nil => exact .leaf rfl
  | @cons t u notes notes' first rest =>
    by_cases nested : ∃ o inner, t = TypeTerm.applied (some "Annotated") o inner
    · obtain ⟨o, inner, rfl⟩ := nested
      cases first with
      | leaf leaf => cases leaf
      | applied _ tag size each =>
        obtain rfl := tag.1 rfl
        exact .ofApplied o Iff.rfl (List.rel_append (forall₂_of_zip size each) rest)
    · have other : ∀ o inner, u ≠ TypeTerm.applied (some "Annotated") o inner := by
        rintro o inner rfl
        cases first with
        | leaf leaf => cases leaf
        | applied _ tag size each => exact nested ⟨o, _, by rw [tag.2 rfl]⟩
      rw [fresh notes fun o inner same => nested ⟨o, inner, same⟩, fresh notes' other]
      exact .ofApplied _ Iff.rfl (.cons first.argument rest)

theorem Alike.applyNamed (m : Option String) (name : String) (vs : List String)
    (bases : List TypeTerm) (args : List.Forall₂ Alike as bs) :
    Alike ((named m name vs bases).apply as) ((named m name vs bases).apply bs) := by
  by_cases annotated : m = some "typing" ∧ name = "Annotated"
  · obtain ⟨rfl, rfl⟩ := annotated
    exact .applyAnnotated vs bases args
  cases vs with
  | nil =>
    have plain (as : List TypeTerm) : (named m name [] bases).apply as =
        TypeTerm.applied Option.none (named m name [] bases) as := by
      unfold TypeTerm.apply
      split <;> simp_all
    rw [plain, plain]
    exact .ofApplied _ Iff.rfl args
  | cons v vs =>
    have plain (as : List TypeTerm) : (named m name (v :: vs) bases).apply as =
        TypeTerm.applied Option.none (named m name (v :: vs) bases) (as.map TypeTerm.argument) := by
      simp_all [TypeTerm.apply]
    rw [plain, plain]
    exact .ofApplied _ Iff.rfl (forall₂_argument args)

def takesArguments : TypeTerm → Bool
  | none | ellipsis | items _ | value _ => false
  | _ => true

theorem Alike.apply (h : Alike d d') (takes : d'.takesArguments = true)
    (args : List.Forall₂ Alike as bs) (neat : tidyApply d as = true)
    (neat' : tidyApply d' bs = true) :
    Alike (d.apply as) (d'.apply bs) := by
  have arguments := forall₂_argument args
  cases h with
  | leaf leaf =>
    cases d with
    | form name => exact .applyForm args neat neat'
    | named m name vs bases => exact .applyNamed m name vs bases args
    | aliasOf | applied | union | items => cases leaf
    | _ => exact .ofApplied _ Iff.rfl args
  | sameAlias known => exact .applyAlias _ _ args
  | ownClass known => exact .applyClass known args
  | absent => cases takes
  | applied origin tag size each =>
    have alike : Alike (TypeTerm.applied _ origin _) (TypeTerm.applied _ origin _) :=
      .applied origin tag size each
    simp only [TypeTerm.apply, tidyApply, ← alike.typeVariables_eq] at neat neat' ⊢
    exact .substitute _ arguments alike neat neat'
  | union style style' flat flat' size each =>
    have alike : Alike (TypeTerm.union style _) (TypeTerm.union style' _) :=
      .union style style' flat flat' size each
    simp only [TypeTerm.apply, tidyApply, ← alike.typeVariables_eq] at neat neat' ⊢
    exact .substitute _ arguments alike neat neat'
  | items => cases takes

end application

end Stencil.TypeTerm
