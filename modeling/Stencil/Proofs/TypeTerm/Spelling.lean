import Stencil.Proofs.TypeTerm.Alike

/-!
Names and the spelling of types. Every alias of a builtin class may be written as that class, and every
union of the vocabulary with bars. What such expressions build differs in spelling only, which the name
does not show. A union of types that differ in spelling only is another matter: it keeps them apart, so
that one type is named twice (`sourceName_repeats`). In all other cases the name stays
(`sourceName_of_respelled`).
-/

namespace Stencil.TypeTerm

section names

variable {t u : TypeTerm} {as bs : List TypeTerm}

theorem toOption_bind {ε α β : Type} (x : Except ε α) (f : α → Except ε β) :
    (x >>= f).toOption = x.toOption.bind fun a => (f a).toOption := by
  cases x <;> rfl

theorem toOption_sourceNames
    (h : List.Forall₂ (fun a b => (sourceName a).toOption = (sourceName b).toOption) as bs) :
    (sourceNames as).toOption = (sourceNames bs).toOption := by
  induction h with
  | nil => rfl
  | cons first rest ih => simp only [sourceNames, toOption_bind, first, ih]

theorem toOption_argumentNames
    (h : List.Forall₂ (fun a b => (argumentName a).toOption = (argumentName b).toOption) as bs) :
    (argumentNames as).toOption = (argumentNames bs).toOption := by
  induction h with
  | nil => rfl
  | cons first rest ih => simp only [argumentNames_cons, toOption_bind, first, ih]

theorem toOption_sourceName_applied (spelled spelled' : Option String) (origin : TypeTerm)
    (h : List.Forall₂ (fun a b => (argumentName a).toOption = (argumentName b).toOption) as bs) :
    (sourceName (applied spelled origin as)).toOption =
      (sourceName (applied spelled' origin bs)).toOption := by
  have args := toOption_argumentNames h
  cases h with
  | nil => rfl
  | cons => simp only [sourceName, toOption_bind, args]

theorem Alike.toOption_sourceName (h : Alike t u) :
    (sourceName t).toOption = (sourceName u).toOption ∧
      (argumentName t).toOption = (argumentName u).toOption := by
  induction h with
  | leaf | sameAlias | ownClass | absent => exact ⟨rfl, rfl⟩
  | @applied spelled spelled' origin as bs tag size each ih =>
    have whole := toOption_sourceName_applied spelled spelled' origin
      (forall₂_of_zip size fun a b within => (ih a b within).2)
    exact ⟨whole, whole⟩
  | @union style style' as bs flat flat' size each ih =>
    have parts := toOption_sourceNames (forall₂_of_zip size fun a b within => (ih a b within).1)
    have whole : (TypeTerm.sourceName (TypeTerm.union style as)).toOption =
        (TypeTerm.sourceName (TypeTerm.union style' bs)).toOption := by
      simp only [TypeTerm.sourceName, toOption_bind, parts]
    exact ⟨whole, whole⟩
  | items size each ih =>
    have parts := toOption_sourceNames (forall₂_of_zip size fun a b within => (ih a b within).1)
    exact ⟨rfl, by simp only [argumentName, toOption_bind, parts]⟩

end names

end Stencil.TypeTerm

namespace Stencil.TypeExpr

open TypeTerm (Alike forall₂_of_zip unionOf)

def isLeaf : TypeExpr → Bool
  | index _ _ | bar _ | items _ | value (.text _) => false
  | _ => true

/-- An expression without text, and the same expression with some of its parts spelled in another way:
with the class that an alias stands for, or with bars for a union of the vocabulary. -/
inductive Respelled : TypeExpr → TypeExpr → Prop
  | leaf {e : TypeExpr} (h : e.isLeaf = true) : Respelled e e
  | ownClass {name cls : String} (h : TypeTerm.aliasOrigins.lookup name = some (.builtin cls)) :
      Respelled (typing name) (builtin cls)
  | optional {e f : TypeExpr} (h : Respelled e f) :
      Respelled (index (typing "Optional") [e]) (bar [f, value .null])
  | union {es fs : List TypeExpr} (several : 2 ≤ es.length) (size : es.length = fs.length)
      (each : ∀ e f, (e, f) ∈ es.zip fs → Respelled e f) :
      Respelled (index (typing "Union") es) (bar fs)
  | index {d d' : TypeExpr} {es fs : List TypeExpr} (h : Respelled d d')
      (takes : d'.build.takesArguments = true) (size : es.length = fs.length)
      (each : ∀ e f, (e, f) ∈ es.zip fs → Respelled e f) : Respelled (index d es) (index d' fs)
  | bar {es fs : List TypeExpr} (size : es.length = fs.length)
      (each : ∀ e f, (e, f) ∈ es.zip fs → Respelled e f) : Respelled (bar es) (bar fs)
  | items {es fs : List TypeExpr} (size : es.length = fs.length)
      (each : ∀ e f, (e, f) ∈ es.zip fs → Respelled e f) : Respelled (items es) (items fs)

mutual

/-- Whether no union that is formed while the type is built has two members that differ in spelling
only. -/
def tidy : TypeExpr → Bool
  | index d es => tidy d && tidyAll es && d.build.tidyApply (buildAll es)
  | bar es => tidyAll es && TypeTerm.tidy (buildAll es)
  | items es => tidyAll es
  | _ => true

def tidyAll : List TypeExpr → Bool
  | [] => true
  | e :: es => tidy e && tidyAll es

end

section building

variable {e f : TypeExpr} {es fs : List TypeExpr}

theorem forall₂_buildAll
    (h : List.Forall₂ (fun e f => tidy e = true → tidy f = true → Alike (build e) (build f)) es fs)
    (neat : tidyAll es = true) (neat' : tidyAll fs = true) :
    List.Forall₂ Alike (buildAll es) (buildAll fs) := by
  induction h with
  | nil => exact .nil
  | cons first rest ih =>
    rw [tidyAll, Bool.and_eq_true] at neat neat'
    exact .cons (first neat.1 neat'.1) (ih neat.2 neat'.2)

theorem alike_typing (name : String) : Alike (TypeTerm.typing name) (TypeTerm.typing name) := by
  unfold TypeTerm.typing
  split_ifs
  · exact .leaf rfl
  · exact .leaf rfl
  · exact .leaf rfl
  · split
    · exact .sameAlias (by assumption)
    · exact .leaf rfl

theorem alike_of_isLeaf (h : e.isLeaf = true) : Alike (build e) (build e) := by
  cases e with
  | typing name => exact alike_typing name
  | internal name =>
    change Alike (TypeTerm.internalClass name) (TypeTerm.internalClass name)
    unfold TypeTerm.internalClass
    split <;> exact .leaf rfl
  | value d =>
    cases d with
    | text => cases h
    | _ => exact .leaf rfl
  | index | bar | items => cases h
  | _ => exact .leaf rfl

theorem alike_ownClass {name cls : String}
    (known : TypeTerm.aliasOrigins.lookup name = some (.builtin cls)) :
    Alike (build (typing name)) (build (builtin cls)) := by
  have apart : ∀ entry ∈ TypeTerm.aliasOrigins, entry.1 ≠ "Text" ∧ entry.1 ≠ "AnyStr" ∧
      entry.1 ∉ TypeTerm.typingClasses := by decide
  have renamed : ∀ entry ∈ TypeTerm.aliasOrigins, entry.2.label? ≠ some "IOError" ∧
      entry.2.label? ≠ some "EnvironmentError" := by decide
  obtain ⟨text, anyStr, class_⟩ := apart _ (TypeTerm.mem_aliasOrigins known)
  obtain ⟨io, environment⟩ := renamed _ (TypeTerm.mem_aliasOrigins known)
  have left : build (typing name) = .aliasOf name (.builtin cls) := by
    change TypeTerm.typing name = _
    simp [TypeTerm.typing, text, anyStr, class_, known]
  have right : build (builtin cls) = .builtin cls := by
    change TypeTerm.builtinNamed cls = _
    simp_all [TypeTerm.builtinNamed, TypeTerm.label?]
  rw [left, right]
  exact .ownClass known

theorem exists_build_bar_eq (several : 2 ≤ es.length) (flat : TypeTerm.Flat (buildAll es)) :
    ∃ style, build (bar es) = unionOf style (buildAll es) := by
  obtain _ | ⟨first, _ | ⟨second, rest⟩⟩ := es
  · cases several
  · simp at several
  · exact TypeTerm.exists_foldl_bar_eq _ _ _ flat

theorem alike_bar (types : List.Forall₂ Alike (buildAll es) (buildAll fs))
    (size : es.length = fs.length) (neat : TypeTerm.tidy (buildAll es) = true)
    (neat' : TypeTerm.tidy (buildAll fs) = true) : Alike (build (bar es)) (build (bar fs)) := by
  obtain ⟨flat, flat'⟩ := TypeTerm.flat_of_alike types
  by_cases several : 2 ≤ es.length
  · obtain ⟨style, same⟩ := exists_build_bar_eq several flat
    obtain ⟨style', same'⟩ := exists_build_bar_eq (size ▸ several) flat'
    rw [same, same']
    exact .unionOf style style' types neat neat'
  · obtain _ | ⟨first, _ | ⟨second, rest⟩⟩ := es
    · obtain rfl := List.length_eq_zero_iff.1 size.symm
      exact .leaf rfl
    · obtain ⟨f, rfl⟩ := List.length_eq_one_iff.1 size.symm
      exact (List.forall₂_cons.1 types).1
    · simp at several

theorem alike_union (types : List.Forall₂ Alike (buildAll es) (buildAll fs))
    (several : 2 ≤ es.length) (size : es.length = fs.length)
    (neat : TypeTerm.tidy ((buildAll es).map TypeTerm.argument) = true)
    (neat' : TypeTerm.tidy (buildAll fs) = true) :
    Alike (build (index (typing "Union") es)) (build (bar fs)) := by
  obtain ⟨style, same⟩ := exists_build_bar_eq (size ▸ several) (TypeTerm.flat_of_alike types).2
  have arguments : List.Forall₂ Alike ((buildAll es).map TypeTerm.argument) (buildAll fs) :=
    List.forall₂_map_left_iff.2 (types.imp fun _ _ alike => alike.argument_left)
  rw [same]
  exact .unionOf .named style arguments neat neat'

theorem Respelled.alike (h : Respelled e f) (neat : e.tidy = true) (neat' : f.tidy = true) :
    Alike (build e) (build f) := by
  induction h with
  | leaf h => exact alike_of_isLeaf h
  | ownClass known => exact alike_ownClass known
  | optional h ih =>
    simp only [tidy, tidyAll, Bool.and_eq_true] at neat neat'
    have part := ih neat.1.2.1 neat'.1.1
    exact .unionOf .named _ (.cons part.argument_left (.cons .absent .nil)) neat.2 neat'.2
  | union several size each ih =>
    simp only [tidy, Bool.and_eq_true] at neat neat'
    exact alike_union (forall₂_buildAll (forall₂_of_zip size ih) neat.1.2 neat'.1) several size
      neat.2 neat'.2
  | index h takes size each ihd ih =>
    simp only [tidy, Bool.and_eq_true] at neat neat'
    exact (ihd neat.1.1 neat'.1.1).apply takes
      (forall₂_buildAll (forall₂_of_zip size ih) neat.1.2 neat'.1.2) neat.2 neat'.2
  | bar size each ih =>
    simp only [tidy, Bool.and_eq_true] at neat neat'
    exact alike_bar (forall₂_buildAll (forall₂_of_zip size ih) neat.1 neat'.1) size neat.2 neat'.2
  | items size each ih => exact .ofItems (forall₂_buildAll (forall₂_of_zip size ih) neat neat')

end building

section respelling

variable {d d' : TypeExpr} {es fs : List TypeExpr}

theorem Respelled.ofIndex (h : Respelled d d') (takes : d'.build.takesArguments = true)
    (args : List.Forall₂ Respelled es fs) :
    Respelled (TypeExpr.index d es) (TypeExpr.index d' fs) :=
  .index h takes args.length_eq fun _ _ within => List.forall₂_zip args within

theorem Respelled.ofUnion (several : 2 ≤ es.length) (types : List.Forall₂ Respelled es fs) :
    Respelled (TypeExpr.index (typing "Union") es) (TypeExpr.bar fs) :=
  .union several types.length_eq fun _ _ within => List.forall₂_zip types within

end respelling

/-- The name of a type does not depend on how its parts are spelled, as long as no union that is formed
on the way has two members that differ in nothing else. -/
theorem sourceName_of_respelled {e f : TypeExpr} (h : Respelled e f) (neat : e.tidy = true)
    (neat' : f.tidy = true) : e.build.sourceName.toOption = f.build.sourceName.toOption :=
  (h.alike neat neat').toOption_sourceName.1

/-- A union of a table, whose values are given later, and of a list that comes twice. -/
theorem sourceName_of_respelled_nested :
    let int := builtin "int"
    let e := index (typing "Union")
      [index (index (typing "Dict") [int, index (typing "Optional") [free "T"]])
        [index (typing "List") [int]], index (typing "List") [int], index (typing "List") [int]]
    let f := bar
      [index (index (builtin "dict") [int, bar [free "T", value .null]]) [index (builtin "list") [int]],
        index (builtin "list") [int], index (builtin "list") [int]]
    Respelled e f ∧ e.tidy = true ∧ f.tidy = true ∧
      e.build.sourceName = .ok "dict[int, list[int] | None] | list[int]" ∧
      e.build.sourceName.toOption = f.build.sourceName.toOption := by
  intro int e f
  have ints : Respelled int int := .leaf rfl
  have list : Respelled (index (typing "List") [int]) (index (builtin "list") [int]) :=
    .ofIndex (.ownClass rfl) rfl (.cons ints .nil)
  have values : Respelled (index (typing "Optional") [free "T"]) (bar [free "T", value .null]) :=
    .optional (.leaf rfl)
  have dict : Respelled (typing "Dict") (builtin "dict") := .ownClass rfl
  have generic := Respelled.ofIndex dict rfl (.cons ints (.cons values .nil))
  have table := Respelled.ofIndex generic rfl (.cons list .nil)
  have h : Respelled e f :=
    .ofUnion (Nat.le_succ 2) (.cons table (.cons list (.cons list .nil)))
  have neat : e.tidy = true := by decide +kernel
  have neat' : f.tidy = true := by decide +kernel
  exact ⟨h, neat, neat', rfl, sourceName_of_respelled h neat neat'⟩

/-- The two spellings of one list stay apart in a union, whose name has the list twice. -/
theorem sourceName_repeats :
    let list := index (builtin "list") [builtin "int"]
    let e := index (typing "Union") [index (typing "List") [builtin "int"], list]
    let f := index (typing "Union") [list, list]
    Respelled e f ∧ e.build.sourceName = .ok "list[int] | list[int]" ∧
      f.build.sourceName = .ok "list[int]" := by
  intro list e f
  have args : List.Forall₂ Respelled [builtin "int"] [builtin "int"] := .cons (.leaf rfl) .nil
  have first : Respelled (index (typing "List") [builtin "int"]) list :=
    .ofIndex (.ownClass rfl) rfl args
  have second : Respelled list list := .ofIndex (.leaf rfl) rfl args
  exact ⟨.ofIndex (.leaf rfl) rfl (.cons first (.cons second .nil)), rfl, rfl⟩

end Stencil.TypeExpr
