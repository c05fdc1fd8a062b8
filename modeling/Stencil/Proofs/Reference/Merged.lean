import Mathlib.Data.List.Infix
import Stencil.Compiler

/-!
Merged references. Whatever the forms of the references and however often they are repeated, what two
lists are merged to has every reference once, at its first occurrence (`Firsts`). So the included
references come before a context's own, and merging the result with parts of the two lists changes
nothing (`merged_answers`).
-/

namespace Stencil

namespace Reference

structure Firsts (seen kept : List Reference) : Prop where
  distinct : kept.Nodup
  members : ∀ r, r ∈ kept ↔ r ∈ seen
  ordered : kept.Pairwise fun r s => seen.idxOf r < seen.idxOf s

section step

variable {seen kept : List Reference} {r : Reference}

theorem firsts_nil : Firsts [] [] := ⟨List.nodup_nil, fun _ => Iff.rfl, List.Pairwise.nil⟩

theorem Firsts.pairwise_concat (h : Firsts seen kept) :
    kept.Pairwise fun s t => (seen ++ [r]).idxOf s < (seen ++ [r]).idxOf t := by
  refine h.ordered.imp_of_mem fun hs ht before => ?_
  rw [List.idxOf_append_of_mem ((h.members _).1 hs), List.idxOf_append_of_mem ((h.members _).1 ht)]
  exact before

theorem Firsts.skip (h : Firsts seen kept) (known : r ∈ kept) : Firsts (seen ++ [r]) kept where
  distinct := h.distinct
  members s := by
    rw [h.members, List.mem_append, List.mem_singleton, or_iff_left_of_imp]
    rintro rfl
    exact (h.members s).1 known
  ordered := h.pairwise_concat

theorem Firsts.concat (h : Firsts seen kept) (new : r ∉ kept) :
    Firsts (seen ++ [r]) (kept ++ [r]) where
  distinct := List.nodup_append.2 ⟨h.distinct, List.pairwise_singleton _ r, fun s hs t ht same => new (by
    rw [← List.mem_singleton.1 ht, ← same]
    exact hs)⟩
  members s := by rw [List.mem_append, List.mem_append, h.members]
  ordered := by
    refine List.pairwise_append.2 ⟨h.pairwise_concat, List.pairwise_singleton _ r, fun s hs t ht => ?_⟩
    have unseen : r ∉ seen := mt (h.members r).2 new
    have inside := (h.members s).1 hs
    rw [List.mem_singleton.1 ht, List.idxOf_append_of_mem inside, List.idxOf_append_of_notMem unseen]
    exact Nat.lt_add_right _ (List.idxOf_lt_length_of_mem inside)

end step

section run

variable {seen kept rs part : List Reference}

theorem Firsts.addNew (h : Firsts seen kept) (rs : List Reference) :
    Firsts (seen ++ rs) (addNew kept rs) := by
  induction rs generalizing seen kept with
  | nil => rwa [List.append_nil]
  | cons r rs ih =>
    rw [Reference.addNew, List.append_cons]
    split
    · next known => exact ih (h.skip known)
    · next new => exact ih (h.concat new)

theorem firsts_merge (included own : List Reference) :
    Firsts (included ++ own) (merge included own) := firsts_nil.addNew _

theorem addNew_append (kept rs part : List Reference) :
    addNew kept (rs ++ part) = addNew (addNew kept rs) part := by
  induction rs generalizing kept with
  | nil => rfl
  | cons r rs ih =>
    rw [List.cons_append, addNew, addNew]
    split <;> exact ih _

theorem addNew_of_subset (h : part ⊆ kept) : addNew kept part = kept := by
  induction part with
  | nil => rfl
  | cons r part ih =>
    rw [List.cons_subset] at h
    rw [addNew, if_pos h.1, ih h.2]

theorem addNew_of_nodup (h : (kept ++ rs).Nodup) : addNew kept rs = kept ++ rs := by
  induction rs generalizing kept with
  | nil => rw [List.append_nil, addNew]
  | cons r rs ih =>
    have new : r ∉ kept := fun known =>
      (List.nodup_append.1 h).2.2 r known r List.mem_cons_self rfl
    rw [List.append_cons] at h
    rw [addNew, if_neg new, ih h, ← List.append_cons]

theorem isPrefix_addNew (kept rs : List Reference) : kept <+: addNew kept rs := by
  induction rs generalizing kept with
  | nil => exact List.prefix_rfl
  | cons r rs ih =>
    rw [addNew]
    split
    · exact ih kept
    · exact (List.prefix_append kept [r]).trans (ih (kept ++ [r]))

theorem merge_eq_addNew (included own : List Reference) :
    merge included own = addNew (merge included []) own := by
  rw [merge, merge, List.append_nil, addNew_append]

theorem merge_of_subset (distinct : kept.Nodup) (h : part ⊆ kept) : merge kept part = kept := by
  have whole : addNew [] kept = [] ++ kept := addNew_of_nodup distinct
  rw [merge, addNew_append, whole, List.nil_append, addNew_of_subset h]

end run

end Reference

namespace Resolver

open Reference

structure Merges (context : Context) (included kept : List Reference) : Prop
    extends Firsts (included ++ context.references) kept where
  included_first : ∃ later, kept = merge included [] ++ later ∧ ∀ r ∈ later, r ∉ included
  /-- Merging again with a part of either list answers the same. -/
  again : ∀ other : Context,
    other.references.Sublist included ∨ other.references.Sublist context.references →
      merged other kept = pure (kept.map .ready)

theorem merges_merge (context : Context) (included : List Reference) :
    Merges context included (merge included context.references) where
  toFirsts := firsts_merge included context.references
  included_first := by
    obtain ⟨later, split⟩ := isPrefix_addNew (merge included []) context.references
    rw [← merge_eq_addNew] at split
    have distinct := (firsts_merge included context.references).distinct
    rw [← split, List.nodup_append] at distinct
    refine ⟨later, split.symm, fun r hr known => distinct.2.2 r ?_ r hr rfl⟩
    rw [(firsts_merge included []).members, List.append_nil]
    exact known
  again other h := by
    have firsts := firsts_merge included context.references
    have known : other.references ⊆ merge included context.references := by
      intro r hr
      rw [firsts.members, List.mem_append]
      obtain h | h := h
      · exact .inl (h.subset hr)
      · exact .inr (h.subset hr)
    change arranging merge other _ = _
    rw [arranging, merge_of_subset firsts.distinct known]

/-- Whatever references are included and a context brings, the resolver returns the list of their
first occurrences and does nothing else. -/
theorem merged_answers (context : Context) (included : List Reference) :
    ∃ kept : List Reference, merged context included = pure (kept.map .ready) ∧
      Merges context included kept :=
  ⟨merge included context.references, rfl, merges_merge context included⟩

example :
    merge [.module 3, .file "a.py", .module 3] [.bytes [1], .file "a.py", .stream "s", .bytes [1]] =
      [.module 3, .file "a.py", .bytes [1], .stream "s"] := by decide

end Resolver

end Stencil
