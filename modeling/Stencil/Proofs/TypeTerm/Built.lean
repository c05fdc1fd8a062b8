import Stencil.Proofs.Files.Path
import Stencil.Proofs.TypeTerm.Literal
import Stencil.TypeTerm.Build

/-!
Types that are built from known classes and type variables to any depth. The known ones go by names of
their own (`Distinct`); every dotted name that is not reserved will do. A type is known up to its
spelling (`unspelled`), and unions are made of types that are none themselves (`Built.unionOf`).
-/

namespace Stencil.TypeTerm

mutual

/-- A type without the choice of a spelling: aliases give way to the class they stand for, unions are
written with bars, and the class of the absent value is that value. -/
def unspelled : TypeTerm → TypeTerm
  | noneClass => none
  | aliasOf _ origin => origin
  | applied _ origin as => applied Option.none origin (unspelledItems as)
  | union _ ts => union .bar (unspelledItems ts)
  | items ts => items (unspelledItems ts)
  | t => t

def unspelledItems : List TypeTerm → List TypeTerm
  | [] => []
  | t :: ts => unspelled t :: unspelledItems ts

end

@[simp] theorem unspelledItems_eq_map (ts : List TypeTerm) : unspelledItems ts = ts.map unspelled := by
  induction ts with
  | nil => rfl
  | cons t ts ih => rw [unspelledItems, ih, List.map_cons]

def anyClass : TypeTerm := plainClass "typing" "Any"

def label? : TypeTerm → Option String
  | builtin name => some name
  | named m name _ _ => some (moduleAndName m name)
  | form name => some ("typing." ++ name)
  | free name => some name
  | _ => Option.none

def isDefinition : TypeTerm → Bool
  | builtin _ | named _ _ _ _ | form _ => true
  | _ => false

def punctuation : List Char := [' ', ',', '[', ']']

def inName (c : Char) : Bool := !punctuation.contains c

def reserved : List String := ["None", "...", "typing.Any", "typing.Literal"]

/-- A name that a class or a type variable may have; every dotted name that is not reserved is one. -/
def IsProper (name : String) : Prop := name ≠ "" ∧ name.toList.all inName ∧ name ∉ reserved

def isIdentifier (word : String) : Bool :=
  match word.toList with
  | [] => false
  | c :: rest => Text.startsName c && rest.all Text.continuesName

def isDotted (name : String) : Bool := (Text.pieces '.' name).all isIdentifier

theorem inName_of_letter {c : Char} (h : Text.startsName c = true ∨ Text.continuesName c = true) :
    inName c = true := by
  have none : punctuation.all fun c => !Text.startsName c && !Text.continuesName c := by decide
  by_contra mark
  have known : c ∈ punctuation := by simpa [inName] using mark
  have letter := List.all_eq_true.1 none c known
  simp only [Bool.and_eq_true, Bool.not_eq_true'] at letter
  simp [letter] at h

theorem inName_of_isIdentifier {word : String} (h : isIdentifier word = true) :
    word.toList.all inName = true := by
  unfold isIdentifier at h
  split at h
  · cases h
  · rename_i c rest letters
    rw [Bool.and_eq_true, List.all_eq_true] at h
    rw [letters, List.all_cons, inName_of_letter (.inl h.1), Bool.true_and, List.all_eq_true]
    exact fun d hd => inName_of_letter (.inr (h.2 d hd))

theorem isProper_of_isDotted {name : String} (h : isDotted name = true)
    (free : name ∉ ["None", "typing.Any", "typing.Literal"]) : IsProper name := by
  have words : ∀ word ∈ ["", "..."], isDotted word = false := by decide
  have differ (word : String) (hw : word ∈ ["", "..."]) : name ≠ word := by
    rintro rfl
    rw [words name hw] at h
    cases h
  refine ⟨differ "" (by simp), List.all_eq_true.2 fun c hc => ?_, ?_⟩
  · have cut : c = '.' ∨ ∃ piece ∈ Text.splitAt '.' name.toList, c ∈ piece := Text.mem_splitAt hc
    obtain rfl | ⟨piece, hp, hc⟩ := cut
    · rfl
    · have letters := inName_of_isIdentifier (List.all_eq_true.1 h _ (List.mem_map_of_mem hp))
      rw [String.toList_ofList] at letters
      exact List.all_eq_true.1 letters c hc
  · have dots := differ "..." (by simp)
    simp_all [reserved]

structure Distinct (known : TypeTerm → Prop) : Prop where
  proper : ∀ {t}, known t → ∃ name, label? t = some name ∧ IsProper name
  apart : ∀ {t u}, known t → known u → label? t = label? u → t = u

/-- The types in an argument: those of a list of parameters, or the argument itself. -/
def listed : TypeTerm → List TypeTerm
  | items ts => ts
  | t => [t]

def isUnion : TypeTerm → Bool
  | union _ _ => true
  | _ => false

inductive Built (known : TypeTerm → Prop) : TypeTerm → Prop
  | none : Built known none
  | noneClass : Built known noneClass
  | ellipsis : Built known ellipsis
  | any : Built known anyClass
  | leaf {t : TypeTerm} (h : known t) : Built known t
  | bareAlias (spelled : String) {origin : TypeTerm} (h : known origin)
      (definition : origin.isDefinition = true) : Built known (aliasOf spelled origin)
  | applied (spelled : Option String) {origin : TypeTerm} {as : List TypeTerm} (h : known origin)
      (definition : origin.isDefinition = true) (given : as ≠ [])
      (each : ∀ a ∈ as, ∀ t ∈ listed a, Built known t) : Built known (applied spelled origin as)
  | union (style : UnionStyle) {ts : List TypeTerm} (several : 2 ≤ ts.length)
      (flat : ∀ t ∈ ts, t.isUnion = false) (each : ∀ t ∈ ts, Built known t) :
      Built known (union style ts)
  | literal {values : List Datum} (h : ∀ v ∈ values, v.isLiteral = true) : Built known (literal values)

section shapes

variable {known : TypeTerm → Prop} {t : TypeTerm}

def arguments : TypeTerm → List TypeTerm
  | applied _ _ as => as
  | _ => []

def singles : TypeTerm → List TypeTerm
  | union _ ts => ts
  | t => [t]

def joined : List TypeTerm → TypeTerm
  | [t] => t
  | ts => union .bar ts

theorem singles_of_not_union (h : t.isUnion = false) : singles t = [t] := by
  cases t <;> first | rfl | cases h

theorem Built.isUnion_cases (distinct : Distinct known) (built : Built known t) :
    t.isUnion = false ∨ ∃ style ts, t = .union style ts ∧ 2 ≤ ts.length ∧
      ∀ x ∈ ts, Built known x ∧ x.isUnion = false := by
  cases t with
  | union style ts =>
    cases built with
    | leaf h =>
      obtain ⟨name, label, -⟩ := distinct.proper h
      cases label
    | union _ several flat each =>
      exact .inr ⟨style, ts, rfl, several, fun x hx => ⟨each x hx, flat x hx⟩⟩
  | _ => exact .inl rfl

theorem Built.of_singles (distinct : Distinct known) (built : Built known t) :
    singles t ≠ [] ∧ (∀ x ∈ singles t, Built known x ∧ x.isUnion = false) ∧
      unspelled t = joined ((singles t).map unspelled) := by
  obtain single | ⟨style, ts, rfl, several, members⟩ := built.isUnion_cases distinct
  · rw [singles_of_not_union single]
    refine ⟨List.cons_ne_nil t [], fun x hx => ?_, rfl⟩
    rw [List.mem_singleton.1 hx]
    exact ⟨built, single⟩
  · obtain ⟨x, y, zs, rfl⟩ : ∃ x y zs, ts = x :: y :: zs := by
      match ts, several with
      | x :: y :: zs, _ => exact ⟨x, y, zs, rfl⟩
    exact ⟨List.cons_ne_nil _ _, members, by simp [unspelled, singles, joined]⟩

theorem Built.of_applied (distinct : Distinct known) {spelled : Option String} {origin : TypeTerm}
    {as : List TypeTerm} (built : Built known (.applied spelled origin as)) :
    origin ≠ form "Literal" ∧ ∀ a ∈ as, ∀ t ∈ listed a, Built known t := by
  cases built with
  | leaf h =>
    obtain ⟨name, label, -⟩ := distinct.proper h
    cases label
  | applied _ h definition given each =>
    refine ⟨?_, each⟩
    rintro rfl
    obtain ⟨name, label, -, -, unreserved⟩ := distinct.proper h
    obtain rfl := Option.some.inj label
    exact unreserved (by decide)

theorem Built.of_literal (distinct : Distinct known) {values : List Datum}
    (built : Built known (.literal values)) : ∀ v ∈ values, v.isLiteral = true := by
  cases built with
  | leaf h =>
    obtain ⟨name, label, -⟩ := distinct.proper h
    cases label
  | literal h => exact h

end shapes

/-! Joining types that are built. -/

section joining

variable {known : TypeTerm → Prop} {t : TypeTerm}

theorem mem_of_mem_dropRepeats {ts : List TypeTerm} (h : t ∈ dropRepeats ts) : t ∈ ts := by
  have grows (ts kept : List TypeTerm)
      (h : t ∈ ts.foldl (fun kept t => if kept.any (t.same ·) then kept else kept ++ [t]) kept) :
      t ∈ kept ∨ t ∈ ts := by
    induction ts generalizing kept with
    | nil => exact .inl h
    | cons u ts ih =>
      rw [List.foldl_cons] at h
      obtain h | h := ih _ h
      · split at h
        · exact .inl h
        · obtain h | h := List.mem_append.1 h
          · exact .inl h
          · rw [List.mem_singleton.1 h]
            exact .inr List.mem_cons_self
      · exact .inr (List.mem_cons_of_mem u h)
  exact (grows ts [] h).resolve_left (List.not_mem_nil)

theorem dropRepeats_ne_nil {ts : List TypeTerm} (h : ts ≠ []) : dropRepeats ts ≠ [] := by
  have grows (ts kept : List TypeTerm) (some : kept ≠ []) :
      ts.foldl (fun kept t => if kept.any (t.same ·) then kept else kept ++ [t]) kept ≠ [] := by
    induction ts generalizing kept with
    | nil => exact some
    | cons u ts ih =>
      rw [List.foldl_cons]
      split
      · exact ih kept some
      · exact ih _ (by simp)
  obtain ⟨t, ts, rfl⟩ := List.exists_cons_of_ne_nil h
  exact grows ts [t] (List.cons_ne_nil t [])

theorem Built.of_mem_members (distinct : Distinct known) (built : Built known t) {x : TypeTerm}
    (hx : x ∈ members t) : Built known x ∧ x.isUnion = false := by
  obtain single | ⟨style, ts, rfl, -, each⟩ := built.isUnion_cases distinct
  · cases t with
    | none =>
      rw [List.mem_singleton.1 hx]
      exact ⟨.noneClass, rfl⟩
    | union => cases single
    | _ =>
      rw [List.mem_singleton.1 hx]
      exact ⟨built, single⟩
  · exact each x hx

theorem Built.unionOf (distinct : Distinct known) (style : UnionStyle) {ts : List TypeTerm}
    (each : ∀ t ∈ ts, Built known t) (given : ts.flatMap members ≠ []) :
    Built known (TypeTerm.unionOf style ts) := by
  have parts : ∀ x ∈ dropRepeats (ts.flatMap members), Built known x ∧ x.isUnion = false := by
    intro x hx
    obtain ⟨t, ht, hx⟩ := List.mem_flatMap.1 (mem_of_mem_dropRepeats hx)
    exact (each t ht).of_mem_members distinct hx
  have some := dropRepeats_ne_nil given
  unfold TypeTerm.unionOf
  split
  · rename_i x only
    exact (parts x (only ▸ List.mem_singleton_self x)).1
  · rename_i other
    refine .union style ?_ (fun x hx => (parts x hx).2) fun x hx => (parts x hx).1
    match dropRepeats (ts.flatMap members), some, other with
    | [x], _, other => exact absurd rfl (other x)
    | x :: y :: zs, _, _ => simp

end joining

end Stencil.TypeTerm
