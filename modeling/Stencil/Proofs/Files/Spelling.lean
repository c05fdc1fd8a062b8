import Mathlib.Data.List.Basic
import Stencil.Proofs.Files.Path

/-!
Spellings of paths. An absolute path that is written as normal forms are is its own normal form, and
so is a file in it. A file in a folder has the name that normal forms give it only if the folder is
spelled so, up to one slash at its end.
-/

namespace Stencil.Path

def Canonical (path : String) : Prop :=
  ∃ start ss, (start = "/" ∨ start = "//") ∧ (∀ s ∈ ss, Plain s) ∧ path = start ++ "/".intercalate ss

theorem isAbsolute_intercalate {ss : List String} (h : ∀ s ∈ ss, Plain s) :
    isAbsolute ("/".intercalate ss) = false := by
  have relative := isAbsolute_segments ("/".intercalate ss)
  rwa [segments_intercalate h] at relative

theorem root_append {start rest : String} (hs : start = "/" ∨ start = "//")
    (h : isAbsolute rest = false) : root (start ++ rest) = start := by
  have none : ¬['/'] <+: rest.toList := by
    rw [isAbsolute, String.startsWith_string_eq_false_iff] at h
    exact h
  have shorter {more : List Char} (hm : '/' :: more <+: rest.toList) : False :=
    none ((List.prefix_append ['/'] more).trans hm)
  obtain rfl | rfl := hs
  · have three : ¬("/" ++ rest).startsWith "///" = true := by
      rw [String.startsWith_string_iff, String.toList_append]
      intro starts
      exact shorter (List.cons_prefix_cons.1 starts).2
    have two : ¬("/" ++ rest).startsWith "//" = true := by
      rw [String.startsWith_string_iff, String.toList_append]
      intro starts
      exact shorter (List.cons_prefix_cons.1 starts).2
    have one : ("/" ++ rest).startsWith "/" = true := by
      rw [String.startsWith_string_iff, String.toList_append]
      exact List.prefix_append _ _
    rw [root, if_neg three, if_neg two, if_pos one]
  · have three : ¬("//" ++ rest).startsWith "///" = true := by
      rw [String.startsWith_string_iff, String.toList_append]
      intro starts
      exact shorter (List.cons_prefix_cons.1 (List.cons_prefix_cons.1 starts).2).2
    have two : ("//" ++ rest).startsWith "//" = true := by
      rw [String.startsWith_string_iff, String.toList_append]
      exact List.prefix_append _ _
    rw [root, if_neg three, if_pos two]

theorem root_of_absolute {path : String} (h : isAbsolute path = true) :
    root path = "/" ∨ root path = "//" := by
  unfold root
  split
  · exact .inl rfl
  · split
    · exact .inr rfl
    · exact .inl (if_pos h)

theorem normal_of_absolute {path : String} (h : isAbsolute path = true) :
    normal path = root path ++ "/".intercalate (segments path) := by
  unfold normal
  split
  · next nothing =>
    have absolute := isAbsolute_append (isAbsolute_root h) ("/".intercalate (segments path))
    rw [nothing] at absolute
    cases absolute
  · rfl

theorem canonical_normal {path : String} (h : isAbsolute path = true) : Canonical (normal path) :=
  ⟨root path, segments path, root_of_absolute h, fun _ => plain_of_mem_segments, normal_of_absolute h⟩

theorem endsWith_slash {path : String} :
    path.endsWith "/" = true ↔ path.toList.getLast? = some '/' := by
  rw [← String.endsWith_toSlice, String.Slice.endsWith_string_iff, String.copy_toSlice]
  exact List.singleton_suffix_iff_getLast?_eq_some

theorem endsWith_of_plain {s : String} (h : Plain s) (before : String) :
    (before ++ s).endsWith "/" = false := by
  rw [← Bool.not_eq_true, endsWith_slash, String.toList_append]
  obtain nothing | ⟨front, c, cut⟩ := s.toList.eq_nil_or_concat'
  · exact absurd (String.toList_eq_nil_iff.1 nothing) h.2.1
  · rw [cut, ← List.append_assoc, List.getLast?_concat]
    intro last
    have unslashed := h.1
    rw [cut, Option.some.inj last] at unslashed
    exact unslashed (List.mem_append_right _ List.mem_cons_self)

theorem isAbsolute_plain {s : String} (h : Plain s) : isAbsolute s = false := by
  have relative := isAbsolute_of_plain h ""
  rwa [String.append_empty] at relative

theorem join_of_absolute {path : String} (h : isAbsolute path = true) (folder : String) :
    join folder path = path := by
  rw [join, if_pos h]

theorem join_of_slash {folder path : String} (h : isAbsolute path = false)
    (ends : folder.endsWith "/" = true) : join folder path = folder ++ path := by
  simp [join, h, ends]

theorem join_of_no_slash {folder path : String} (h : isAbsolute path = false) (filled : folder ≠ "")
    (ends : folder.endsWith "/" = false) : join folder path = folder ++ "/" ++ path := by
  simp [join, h, ends, filled]

namespace Canonical

variable {path s : String}

theorem absolute (h : Canonical path) : isAbsolute path = true := by
  obtain ⟨start, ss, rfl | rfl, -, rfl⟩ := h
  · exact isAbsolute_append (isAbsolute_iff.2 ⟨[], rfl⟩) _
  · exact isAbsolute_append (isAbsolute_iff.2 ⟨['/'], rfl⟩) _

theorem normal_eq (h : Canonical path) : normal path = path := by
  have absolute := h.absolute
  obtain ⟨start, ss, hs, plain, rfl⟩ := h
  have root_eq := root_append hs (isAbsolute_intercalate plain)
  have segments_eq := segments_root (start ++ "/".intercalate ss) ("/".intercalate ss)
  rw [root_eq, segments_intercalate plain] at segments_eq
  rw [normal_of_absolute absolute, root_eq, segments_eq]

theorem endsWith_iff (h : Canonical path) :
    path.endsWith "/" = true ↔ path = "/" ∨ path = "//" := by
  obtain ⟨start, ss, hs, plain, rfl⟩ := h
  constructor
  · intro ends
    obtain rfl | ⟨before, s, rfl⟩ := ss.eq_nil_or_concat'
    · rw [String.intercalate_nil, String.append_empty]
      exact hs
    · have last : ∃ front, start ++ "/".intercalate (before ++ [s]) = front ++ s := by
        by_cases hb : before = []
        · exact ⟨start, by rw [hb, List.nil_append, String.intercalate_singleton]⟩
        · refine ⟨start ++ ("/".intercalate before ++ "/"), ?_⟩
          rw [String.intercalate_append_of_ne_nil hb (by simp), String.intercalate_singleton,
            ← String.append_assoc]
      obtain ⟨front, cut⟩ := last
      have hs : Plain s := plain s (List.mem_append_right _ List.mem_cons_self)
      rw [cut, endsWith_of_plain hs] at ends
      cases ends
  · rintro (root | root) <;> rw [root, endsWith_slash] <;> rfl

theorem join (h : Canonical path) (plain : Plain s) : Canonical (join path s) := by
  have relative := isAbsolute_plain plain
  cases ends : path.endsWith "/" with
  | true =>
    rw [join_of_slash relative ends]
    exact ⟨path, [s], h.endsWith_iff.1 ends, by simpa using plain, by simp⟩
  | false =>
    have filled : path ≠ "" := by
      rintro rfl
      cases h.absolute
    rw [join_of_no_slash relative filled ends]
    obtain ⟨start, ss, hs, plains, rfl⟩ := h
    have nonempty : ss ≠ [] := by
      rintro rfl
      rw [String.intercalate_nil, String.append_empty, ← Bool.not_eq_true, endsWith_slash] at ends
      obtain rfl | rfl := hs <;> exact ends rfl
    refine ⟨start, ss ++ [s], hs, ?_, ?_⟩
    · rw [List.forall_mem_append, List.forall_mem_singleton]
      exact ⟨plains, plain⟩
    · rw [String.intercalate_append_of_ne_nil nonempty (by simp), String.intercalate_singleton]
      simp only [String.append_assoc]

end Canonical

theorem endsWith_append_slash (path : String) : (path ++ "/").endsWith "/" = true := by
  rw [endsWith_slash, String.toList_append]
  exact List.getLast?_concat

theorem Canonical.append_slash_ne {path : String} (h : Canonical (normal path))
    (ends : (normal path).endsWith "/" = true) : path ≠ normal path ++ "/" := by
  intro same
  obtain root | root := h.endsWith_iff.1 ends <;>
  · rw [root] at same
    rw [same] at root
    exact absurd root (by decide +kernel)

/-- A folder spells the name of a file in it as normal forms do if it is one itself, up to one slash
at its end. -/
theorem join_eq_join_normal {folder s : String} (h : isAbsolute folder = true) (plain : Plain s) :
    join folder s = join (normal folder) s ↔
      folder = normal folder ∨ folder = normal folder ++ "/" := by
  have relative := isAbsolute_plain plain
  have canonical := canonical_normal h
  have filled : folder ≠ "" := by
    rintro rfl
    cases h
  have filled' : normal folder ≠ "" := by
    intro nothing
    rw [nothing] at canonical
    cases canonical.absolute
  constructor
  · intro same
    cases ends : folder.endsWith "/" <;> cases ends' : (normal folder).endsWith "/"
    · rw [join_of_no_slash relative filled ends, join_of_no_slash relative filled' ends'] at same
      exact .inl ((String.append_left_inj _).1 ((String.append_left_inj _).1 same))
    · rw [join_of_no_slash relative filled ends, join_of_slash relative ends'] at same
      have longer : folder ++ "/" = normal folder := (String.append_left_inj _).1 same
      obtain root | root := canonical.endsWith_iff.1 ends' <;> rw [root] at longer
      · have short : folder = "" := (String.append_left_inj "/").1 longer
        exact absurd short filled
      · have short : folder = "/" := (String.append_left_inj "/").1 longer
        rw [short, ← Bool.not_eq_true, endsWith_slash] at ends
        exact absurd rfl ends
    · rw [join_of_slash relative ends, join_of_no_slash relative filled' ends'] at same
      exact .inr ((String.append_left_inj _).1 same)
    · rw [join_of_slash relative ends, join_of_slash relative ends'] at same
      exact .inl ((String.append_left_inj _).1 same)
  · rintro (same | same)
    · rw [← same]
    · have ends : folder.endsWith "/" = true := by
        rw [same]
        exact endsWith_append_slash _
      have ends' : (normal folder).endsWith "/" = false := by
        rw [← Bool.not_eq_true]
        exact fun ends' => canonical.append_slash_ne ends' same
      rw [join_of_slash relative ends, join_of_no_slash relative filled' ends', ← same]

section normal

variable (path : String)

theorem name_normal : name (normal path) = name path := by rw [name, name, segments_normal]

theorem stem_normal : stem (normal path) = stem path := by rw [stem, stem, name_normal]

theorem segments_parent : segments (parent path) = (segments path).dropLast := by
  rw [parent, segments_normal, segments_root]
  exact segments_intercalate fun s hs => plain_of_mem_segments (List.dropLast_subset _ hs)

theorem name_parent_normal : name (parent (normal path)) = name (parent path) := by
  rw [name, name, segments_parent, segments_parent, segments_normal]

end normal

theorem segments_join_congr {path other : String} (absolute : isAbsolute path = isAbsolute other)
    (same : segments path = segments other) (folder : String) :
    segments (join folder path) = segments (join folder other) := by
  cases h : isAbsolute other with
  | true => rw [join_of_absolute (absolute.trans h), join_of_absolute h, same]
  | false => rw [segments_join (absolute.trans h), segments_join h, same]

end Stencil.Path
