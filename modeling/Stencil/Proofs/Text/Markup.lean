import Mathlib.Data.List.Infix
import Stencil.Text.Markup

/-!
Escaped text is inert: it opens no tag, closes no attribute, and every ampersand in it starts an entity
(`inert_escapeMarkup`). Nothing is lost by that, since reading the entities gives the text back
(`unescapeMarkup_escapeMarkup`). Escaping character by character is the same as replacing one character
after the other in the whole text, as long as the ampersand comes first (`escapeChars_eq_foldl`).
-/

namespace Stencil.Text

def entities : List (Char × String) :=
  [('&', "&amp;"), ('<', "&lt;"), ('>', "&gt;"), ('"', "&quot;"), ('\'', "&#x27;")]

def substitute (s : List Char) (entity : Char × String) : List Char :=
  s.flatMap fun c => if c = entity.1 then entity.2.toList else [c]

def unescapeChars : List Char → List Char
  | '&' :: 'a' :: 'm' :: 'p' :: ';' :: rest => '&' :: unescapeChars rest
  | '&' :: 'l' :: 't' :: ';' :: rest => '<' :: unescapeChars rest
  | '&' :: 'g' :: 't' :: ';' :: rest => '>' :: unescapeChars rest
  | '&' :: 'q' :: 'u' :: 'o' :: 't' :: ';' :: rest => '"' :: unescapeChars rest
  | '&' :: '#' :: 'x' :: '2' :: '7' :: ';' :: rest => '\'' :: unescapeChars rest
  | c :: rest => c :: unescapeChars rest
  | [] => []

def unescapeMarkup (s : String) : String :=
  String.ofList (unescapeChars s.toList)

structure Inert (s : String) : Prop where
  closed : ∀ c ∈ ['<', '>', '"', '\''], c ∉ s.toList
  entity : ∀ rest, '&' :: rest <:+ s.toList → ∃ e ∈ entities, e.2.toList <+: '&' :: rest

theorem escapeChar_cases (c : Char) :
    (∃ e, (c, e) ∈ entities ∧ escapeChar c = e.toList) ∨
      ((∀ e, (c, e) ∉ entities) ∧ escapeChar c = [c]) := by
  unfold escapeChar entity?
  split_ifs with amp less greater double single
  · exact .inl ⟨"&amp;", by simp [entities, amp], rfl⟩
  · exact .inl ⟨"&lt;", by simp [entities, less], rfl⟩
  · exact .inl ⟨"&gt;", by simp [entities, greater], rfl⟩
  · exact .inl ⟨"&quot;", by simp [entities, double], rfl⟩
  · exact .inl ⟨"&#x27;", by simp [entities, single], rfl⟩
  · exact .inr ⟨by simp [entities, amp, less, greater, double, single], rfl⟩

/-- What stands for a character: an ampersand can only come first, and none of the other four comes
at all. -/
theorem escapeChar_shape (c : Char) :
    (∃ e ∈ entities, ∃ tail, escapeChar c = e.2.toList ∧ e.2.toList = '&' :: tail ∧ '&' ∉ tail) ∨
      '&' ∉ escapeChar c := by
  have tails : ∀ e ∈ entities, ∃ tail, e.2.toList = '&' :: tail ∧ '&' ∉ tail := by
    intro e known
    refine ⟨e.2.toList.tail, ?_⟩
    revert e
    decide
  obtain ⟨e, known, same⟩ | ⟨unknown, same⟩ := escapeChar_cases c
  · obtain ⟨tail, head, rest⟩ := tails _ known
    exact .inl ⟨(c, e), known, tail, same, head, rest⟩
  · refine .inr ?_
    rw [same, List.mem_singleton]
    rintro rfl
    exact unknown "&amp;" (by decide)

theorem escapeChars_cons (c : Char) (s : List Char) :
    escapeChars (c :: s) = escapeChar c ++ escapeChars s := rfl

theorem not_mem_escapeChars {mark : Char} (known : mark ∈ ['<', '>', '"', '\'']) (s : List Char) :
    mark ∉ escapeChars s := by
  have clean : ∀ e ∈ entities, mark ∉ e.2.toList := by
    simp only [List.mem_cons, List.not_mem_nil, or_false] at known
    obtain rfl | rfl | rfl | rfl := known <;> decide
  intro found
  obtain ⟨c, -, within⟩ := List.mem_flatMap.1 found
  obtain ⟨e, entity, same⟩ | ⟨unknown, same⟩ := escapeChar_cases c
  · exact clean _ entity (same ▸ within)
  · obtain rfl := List.mem_singleton.1 (same ▸ within)
    have escaped : ∃ e, (mark, e) ∈ entities := by
      revert known
      simp only [entities, List.mem_cons, List.not_mem_nil, or_false, Prod.mk.injEq]
      rintro (rfl | rfl | rfl | rfl) <;> simp
    obtain ⟨e, entity⟩ := escaped
    exact unknown e entity

theorem suffix_of_suffix_append {c : Char} {front back rest : List Char} (free : c ∉ front)
    (h : c :: rest <:+ front ++ back) : c :: rest <:+ back := by
  induction front with
  | nil => exact h
  | cons d front ih =>
    rw [List.mem_cons, not_or] at free
    obtain whole | inner := List.suffix_cons_iff.1 h
    · exact absurd (List.head_eq_of_cons_eq whole) free.1
    · exact ih free.2 inner

theorem entity_of_suffix_escapeChars {s rest : List Char} (h : '&' :: rest <:+ escapeChars s) :
    ∃ e ∈ entities, e.2.toList <+: '&' :: rest := by
  induction s with
  | nil => simp [escapeChars] at h
  | cons c s ih =>
    rw [escapeChars_cons] at h
    obtain ⟨e, known, tail, same, starts, free⟩ | free := escapeChar_shape c
    · rw [same, starts, List.cons_append] at h
      obtain whole | inner := List.suffix_cons_iff.1 h
      · exact ⟨e, known, by rw [whole, starts]; exact List.prefix_append ('&' :: tail) _⟩
      · exact ih (suffix_of_suffix_append free inner)
    · exact ih (suffix_of_suffix_append free h)

theorem inert_escapeMarkup (s : String) : Inert (escapeMarkup s) where
  closed mark known := by
    rw [escapeMarkup, String.toList_ofList]
    exact not_mem_escapeChars known s.toList
  entity rest h := by
    rw [escapeMarkup, String.toList_ofList] at h
    exact entity_of_suffix_escapeChars h

theorem unescapeChars_cons {c : Char} (plain : c ≠ '&') (rest : List Char) :
    unescapeChars (c :: rest) = c :: unescapeChars rest := by
  conv_lhs => unfold unescapeChars
  split <;> simp_all

theorem unescapeChars_escapeChar (c : Char) (rest : List Char) :
    unescapeChars (escapeChar c ++ rest) = c :: unescapeChars rest := by
  obtain ⟨e, known, same⟩ | ⟨unknown, same⟩ := escapeChar_cases c
  · rw [same]
    simp only [entities, List.mem_cons, List.not_mem_nil, or_false, Prod.mk.injEq] at known
    obtain ⟨rfl, rfl⟩ | ⟨rfl, rfl⟩ | ⟨rfl, rfl⟩ | ⟨rfl, rfl⟩ | ⟨rfl, rfl⟩ := known <;> rfl
  · rw [same, List.singleton_append, unescapeChars_cons]
    rintro rfl
    exact unknown "&amp;" (by decide)

theorem unescapeMarkup_escapeMarkup (s : String) : unescapeMarkup (escapeMarkup s) = s := by
  have chars : ∀ cs, unescapeChars (escapeChars cs) = cs := by
    intro cs
    induction cs with
    | nil => rfl
    | cons c cs ih => rw [escapeChars_cons, unescapeChars_escapeChar, ih]
  rw [unescapeMarkup, escapeMarkup, String.toList_ofList, chars, String.ofList_toList]

theorem foldl_substitute_append (es : List (Char × String)) (s t : List Char) :
    es.foldl substitute (s ++ t) = es.foldl substitute s ++ es.foldl substitute t := by
  induction es generalizing s t with
  | nil => rfl
  | cons e es ih =>
    simp only [List.foldl_cons, substitute, List.flatMap_append]
    exact ih _ _

theorem foldl_substitute_other {c : Char} {es : List (Char × String)} (other : ∀ e ∈ es, c ≠ e.1) :
    es.foldl substitute [c] = [c] := by
  induction es with
  | nil => rfl
  | cons e es ih =>
    have kept : substitute [c] e = [c] := by simp [substitute, other e List.mem_cons_self]
    rw [List.foldl_cons, kept]
    exact ih fun f h => other f (List.mem_cons_of_mem e h)

/-- Replacing one character after the other, the ampersand first, touches no entity that an earlier
replacement has written. -/
theorem escapeChars_eq_foldl (s : List Char) : escapeChars s = entities.foldl substitute s := by
  have written : ∀ e ∈ entities, e.2.toList = entities.foldl substitute [e.1] := by decide
  have one : ∀ c, escapeChar c = entities.foldl substitute [c] := by
    intro c
    obtain ⟨e, known, same⟩ | ⟨unknown, same⟩ := escapeChar_cases c
    · rw [same]
      exact written _ known
    · rw [same, foldl_substitute_other]
      rintro ⟨d, e⟩ known rfl
      exact unknown e known
  induction s with
  | nil => rfl
  | cons c s ih =>
    rw [escapeChars_cons, ih, one, ← foldl_substitute_append]
    rfl

end Stencil.Text
