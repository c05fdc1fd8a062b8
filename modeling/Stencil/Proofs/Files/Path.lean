import Stencil.Path

/-!
Segments of paths. A path that is joined to a folder has the segments of both; its normal form has the
same segments, and is absolute if the path is.
-/

namespace Stencil

namespace Text

variable {separator : Char}

theorem splitAt_ne_nil (cs : List Char) : splitAt separator cs ≠ [] := by
  cases cs with
  | nil => simp [splitAt]
  | cons c rest =>
    rw [splitAt]
    split
    · simp
    · cases splitAt separator rest <;> simp

theorem splitAt_append (before after : List Char) :
    splitAt separator (before ++ separator :: after) =
      splitAt separator before ++ splitAt separator after := by
  induction before with
  | nil => simp [splitAt]
  | cons c rest ih =>
    rw [List.cons_append, splitAt, splitAt, ih]
    by_cases hc : c = separator
    · rw [if_pos hc, if_pos hc, List.cons_append]
    · rw [if_neg hc, if_neg hc]
      cases hr : splitAt separator rest with
      | nil => exact absurd hr (splitAt_ne_nil rest)
      | cons line lines => rfl

theorem splitAt_of_not_mem {cs : List Char} (h : separator ∉ cs) : splitAt separator cs = [cs] := by
  induction cs with
  | nil => rfl
  | cons c rest ih =>
    rw [List.mem_cons, not_or] at h
    rw [splitAt, if_neg (Ne.symm h.1), ih h.2]

theorem splitAt_append_of_not_mem {before : List Char} (h : separator ∉ before) (after : List Char) :
    ∃ line lines, splitAt separator (before ++ after) = (before ++ line) :: lines := by
  induction before with
  | nil => exact List.exists_cons_of_ne_nil (splitAt_ne_nil after)
  | cons c rest ih =>
    rw [List.mem_cons, not_or] at h
    obtain ⟨line, lines, cut⟩ := ih h.2
    exact ⟨line, lines, by rw [List.cons_append, splitAt, if_neg (Ne.symm h.1), cut]; rfl⟩

theorem not_mem_of_mem_splitAt {cs piece : List Char} (h : piece ∈ splitAt separator cs) :
    separator ∉ piece := by
  induction cs generalizing piece with
  | nil =>
    rw [splitAt, List.mem_singleton] at h
    simp [h]
  | cons c rest ih =>
    rw [splitAt] at h
    by_cases hc : c = separator
    · rw [if_pos hc, List.mem_cons] at h
      obtain rfl | h := h
      · simp
      · exact ih h
    · rw [if_neg hc] at h
      cases hr : splitAt separator rest with
      | nil => exact absurd hr (splitAt_ne_nil rest)
      | cons line lines =>
        rw [hr] at h ih
        obtain rfl | h := List.mem_cons.1 h
        · exact List.not_mem_cons_of_ne_of_not_mem (Ne.symm hc) (ih List.mem_cons_self)
        · exact ih (List.mem_cons_of_mem line h)

theorem mem_splitAt {c : Char} {cs : List Char} (h : c ∈ cs) :
    c = separator ∨ ∃ piece ∈ splitAt separator cs, c ∈ piece := by
  induction cs with
  | nil => cases h
  | cons d rest ih =>
    rw [splitAt]
    by_cases hd : d = separator
    · rw [if_pos hd]
      obtain rfl | h := List.mem_cons.1 h
      · exact .inl hd
      · exact (ih h).imp id fun ⟨piece, hp, hc⟩ => ⟨piece, List.mem_cons_of_mem [] hp, hc⟩
    · rw [if_neg hd]
      cases cut : splitAt separator rest with
      | nil => exact absurd cut (splitAt_ne_nil rest)
      | cons line lines =>
        rw [cut] at ih
        obtain rfl | h := List.mem_cons.1 h
        · exact .inr ⟨c :: line, List.mem_cons_self, List.mem_cons_self⟩
        · obtain same | ⟨piece, hp, hc⟩ := ih h
          · exact .inl same
          · obtain rfl | hp := List.mem_cons.1 hp
            · exact .inr ⟨d :: piece, List.mem_cons_self, List.mem_cons_of_mem d hc⟩
            · exact .inr ⟨piece, List.mem_cons_of_mem _ hp, hc⟩

end Text

namespace Path

def Plain (s : String) : Prop := '/' ∉ s.toList ∧ s ≠ "" ∧ s ≠ "."

instance (s : String) : Decidable (Plain s) := inferInstanceAs (Decidable (_ ∧ _ ∧ _))

theorem segments_slash (before after : String) :
    segments (before ++ "/" ++ after) = segments before ++ segments after := by
  have cut : (before ++ "/" ++ after).toList = before.toList ++ '/' :: after.toList := by
    simp [String.toList_append]
  simp only [segments, Text.pieces, cut, Text.splitAt_append, List.map_append, List.filter_append]

theorem segments_of_plain {s : String} (h : Plain s) : segments s = [s] := by
  simp [segments, Text.pieces, Text.splitAt_of_not_mem h.1, h.2.1, h.2.2]

theorem plain_of_mem_segments {s path : String} (h : s ∈ segments path) : Plain s := by
  rw [segments, List.mem_filter, Text.pieces, List.mem_map] at h
  obtain ⟨⟨piece, hp, rfl⟩, kept⟩ := h
  refine ⟨?_, by simpa using kept⟩
  rw [String.toList_ofList]
  exact Text.not_mem_of_mem_splitAt hp

theorem segments_intercalate {ss : List String} (h : ∀ s ∈ ss, Plain s) :
    segments ("/".intercalate ss) = ss := by
  induction ss with
  | nil => rfl
  | cons s rest ih =>
    rw [List.forall_mem_cons] at h
    cases rest with
    | nil => rw [String.intercalate_singleton, segments_of_plain h.1]
    | cons s' rest =>
      rw [String.intercalate_cons_cons, segments_slash, segments_of_plain h.1, ih h.2]
      rfl

theorem segments_dotted {s : String} (h : Plain s) (more : String) :
    ∃ t rest, segments (s ++ "." ++ more) = t :: rest ∧ t ≠ ".." := by
  have unslashed : '/' ∉ s.toList ++ ['.'] := by
    rw [List.mem_append, not_or]
    exact ⟨h.1, by decide⟩
  obtain ⟨line, lines, cut⟩ := Text.splitAt_append_of_not_mem unslashed more.toList
  have joined : (s ++ "." ++ more).toList = s.toList ++ ['.'] ++ more.toList := by
    rw [String.toList_append, String.toList_append]
    rfl
  have other : ∀ cs ∈ [[], ['.'], ['.', '.']], s.toList ++ ['.'] ++ line ≠ cs := by
    have filled : s.toList ≠ [] := fun nothing => h.2.1 (String.toList_eq_nil_iff.1 nothing)
    have dotless : s.toList ≠ ['.'] := fun dot => h.2.2 (String.toList_inj.1 dot)
    rcases hs : s.toList with _ | ⟨c, _ | ⟨d, rest⟩⟩
    · exact absurd hs filled
    · rw [hs] at dotless
      simp_all
    · simp
  have text {cs : List Char} (hcs : cs ∈ [[], ['.'], ['.', '.']]) :
      String.ofList (s.toList ++ ['.'] ++ line) ≠ String.ofList cs :=
    fun same => other cs hcs (String.ofList_injective same)
  refine ⟨String.ofList (s.toList ++ ['.'] ++ line),
    (lines.map String.ofList).filter fun s => s != "" && s != ".", ?_, text (by decide)⟩
  rw [segments, Text.pieces, joined, cut, List.map_cons, List.filter_cons, if_pos]
  exact Bool.and_eq_true_iff.2 ⟨bne_iff_ne.2 (text (by decide)), bne_iff_ne.2 (text (by decide))⟩

theorem isAbsolute_iff {path : String} : isAbsolute path = true ↔ ∃ cs, path.toList = '/' :: cs := by
  rw [isAbsolute, String.startsWith_string_iff]
  constructor
  · rintro ⟨cs, h⟩
    exact ⟨cs, h.symm⟩
  · rintro ⟨cs, h⟩
    exact ⟨cs, h.symm⟩

theorem isAbsolute_of_plain {s : String} (h : Plain s) (more : String) :
    isAbsolute (s ++ more) = false := by
  rw [← Bool.not_eq_true, isAbsolute_iff]
  rintro ⟨cs, begins⟩
  rw [String.toList_append] at begins
  cases hs : s.toList with
  | nil => exact h.2.1 (String.toList_eq_nil_iff.1 hs)
  | cons c rest =>
    rw [hs, List.cons_append] at begins
    have unslashed := h.1
    rw [hs, (List.cons.inj begins).1] at unslashed
    exact unslashed List.mem_cons_self

theorem segments_root (path rest : String) : segments (root path ++ rest) = segments rest := by
  have one : segments ("/" ++ rest) = segments rest := by
    rw [← String.empty_append (s := "/"), segments_slash]
    rfl
  unfold root
  split
  · exact one
  · split
    · have two : ("//" : String) ++ rest = "/" ++ "/" ++ rest := rfl
      rw [two, segments_slash]
      rfl
    · split
      · exact one
      · rw [String.empty_append]

theorem segments_normal (path : String) : segments (normal path) = segments path := by
  have same : segments (root path ++ "/".intercalate (segments path)) = segments path := by
    rw [segments_root]
    exact segments_intercalate fun s hs => plain_of_mem_segments hs
  unfold normal
  split
  · next nothing =>
    rw [nothing] at same
    exact same
  · exact same

theorem isAbsolute_append {before : String} (h : isAbsolute before = true) (after : String) :
    isAbsolute (before ++ after) = true := by
  obtain ⟨cs, begins⟩ := isAbsolute_iff.1 h
  exact isAbsolute_iff.2 ⟨cs ++ after.toList, by rw [String.toList_append, begins]; rfl⟩

theorem isAbsolute_root {path : String} (h : isAbsolute path = true) : isAbsolute (root path) = true := by
  have slash : isAbsolute "/" = true := isAbsolute_iff.2 ⟨[], rfl⟩
  unfold root
  split
  · exact slash
  · split
    · exact isAbsolute_append slash "/"
    · have starts : path.startsWith "/" = true := h
      rwa [if_pos starts]

theorem root_of_relative {path : String} (h : isAbsolute path = false) : root path = "" := by
  have none (slashes : String) (more : ['/'] <+: slashes.toList) : ¬path.startsWith slashes = true := by
    intro starts
    rw [String.startsWith_string_iff] at starts
    rw [isAbsolute, String.startsWith_string_eq_false_iff] at h
    exact h (more.trans starts)
  rw [root, if_neg (none "///" ⟨['/', '/'], rfl⟩), if_neg (none "//" ⟨['/'], rfl⟩),
    if_neg (none "/" ⟨[], rfl⟩)]

theorem isAbsolute_segments (path : String) :
    isAbsolute ("/".intercalate (segments path)) = false := by
  cases hs : segments path with
  | nil => rfl
  | cons s rest =>
    have begins : "/".intercalate (s :: rest) = s ++ "/".intercalate ("" :: rest) := by
      rw [← String.intercalate_cons_append, String.append_empty]
    rw [begins]
    exact isAbsolute_of_plain (plain_of_mem_segments (hs ▸ List.mem_cons_self)) _

theorem isAbsolute_normal (path : String) : isAbsolute (normal path) = isAbsolute path := by
  cases h : isAbsolute path with
  | true =>
    have absolute := isAbsolute_append (isAbsolute_root h) ("/".intercalate (segments path))
    unfold normal
    split
    · next nothing =>
      rw [nothing] at absolute
      cases absolute
    · exact absolute
  | false =>
    unfold normal
    rw [root_of_relative h, String.empty_append]
    split
    · rw [← Bool.not_eq_true, isAbsolute_iff]
      rintro ⟨cs, ⟨⟩⟩
    · exact isAbsolute_segments path

theorem segments_join {folder path : String} (h : isAbsolute path = false) :
    segments (join folder path) = segments folder ++ segments path := by
  rw [join, h]
  simp only [Bool.false_eq_true, if_false]
  split
  · next ends =>
    obtain rfl | ends : folder = "" ∨ folder.endsWith "/" = true := by simpa using ends
    · rw [String.empty_append]
      rfl
    · rw [← String.endsWith_toSlice, String.Slice.endsWith_string_iff, String.copy_toSlice] at ends
      obtain ⟨cs, cut⟩ := ends
      have slash : folder = String.ofList cs ++ "/" ++ "" := by
        rw [← String.toList_inj, String.append_empty, String.toList_append, String.toList_ofList, cut]
      rw [slash, String.append_empty, segments_slash, ← String.append_empty (s := _ ++ "/"),
        segments_slash]
      simp [segments, Text.pieces, Text.splitAt]
  · exact segments_slash folder path

theorem isAbsolute_join {folder path : String} (h : isAbsolute path = false) :
    isAbsolute (join folder path) = isAbsolute folder := by
  rw [join, h]
  simp only [Bool.false_eq_true, if_false]
  cases hf : isAbsolute folder with
  | true =>
    split
    · exact isAbsolute_append hf path
    · exact isAbsolute_append (isAbsolute_append hf "/") path
  | false =>
    -- a folder that is given by some text begins with that text's first character
    cases hl : folder.toList with
    | nil =>
      obtain rfl := String.toList_eq_nil_iff.1 hl
      rw [if_pos (by simp), String.empty_append, h]
    | cons c cs =>
      have relative (rest : String) : isAbsolute (folder ++ rest) = false := by
        rw [← Bool.not_eq_true, isAbsolute_iff]
        rintro ⟨ds, begins⟩
        rw [String.toList_append, hl, List.cons_append] at begins
        have absolute := isAbsolute_iff.2 ⟨cs, (List.cons.inj begins).1 ▸ hl⟩
        rw [hf] at absolute
        cases absolute
      split
      · exact relative path
      · rw [String.append_assoc]
        exact relative _

theorem segments_join_normal {working folder path : String} (h : isAbsolute path = false) :
    segments (join working (normal (join folder path))) =
      segments (join working folder) ++ segments path := by
  have absolute : isAbsolute (normal (join folder path)) = isAbsolute folder := by
    rw [isAbsolute_normal, isAbsolute_join h]
  cases hf : isAbsolute folder with
  | true =>
    rw [join, absolute, hf, if_pos rfl, segments_normal, segments_join h, join, if_pos hf]
  | false =>
    rw [hf] at absolute
    rw [segments_join absolute, segments_normal, segments_join h, segments_join hf, List.append_assoc]

end Path

end Stencil
