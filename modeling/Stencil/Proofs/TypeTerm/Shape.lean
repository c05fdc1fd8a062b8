import Stencil.Proofs.TypeTerm.Built
import Stencil.TypeTerm.Name

/-!
The shape of source names. The name of a type that is not a union begins with a word, its root, and goes
on in brackets if there is more to say; the names of unions and of lists of arguments are joined of those
of their members. How a type is spelled makes no difference to its name.
-/

namespace Stencil.TypeTerm

/-! Names of lists of types. -/

def argumentName : TypeTerm → Except NameError String
  | items ts => do .ok ("[" ++ ", ".intercalate (← sourceNames ts) ++ "]")
  | t => sourceName t

theorem bind_eq_ok {ε α β : Type} {x : Except ε α} {f : α → Except ε β} {b : β} :
    (x >>= f) = .ok b ↔ ∃ a, x = .ok a ∧ f a = .ok b := by
  cases x with
  | error e => simp [bind, Except.bind]
  | ok a => simp [bind, Except.bind]

theorem sourceNames_eq_ok {ts : List TypeTerm} {names : List String} :
    sourceNames ts = .ok names ↔ List.Forall₂ (fun t name => sourceName t = .ok name) ts names := by
  induction ts generalizing names with
  | nil => simp [sourceNames, eq_comm]
  | cons t ts ih =>
    simp [sourceNames, bind_eq_ok, ih, List.forall₂_cons_left_iff, eq_comm (a := names)]

theorem argumentNames_cons (a : TypeTerm) (as : List TypeTerm) :
    argumentNames (a :: as) =
      argumentName a >>= fun name => argumentNames as >>= fun names => .ok (name :: names) := by
  cases a with
  | items ts => rw [argumentNames, argumentName, bind_assoc]; rfl
  | _ => rfl

theorem argumentNames_eq_ok {as : List TypeTerm} {names : List String} :
    argumentNames as = .ok names ↔ List.Forall₂ (fun a name => argumentName a = .ok name) as names := by
  induction as generalizing names with
  | nil => simp [argumentNames, eq_comm]
  | cons a as ih =>
    simp [argumentNames_cons, bind_eq_ok, ih, List.forall₂_cons_left_iff, eq_comm (a := names)]

/-! The word that a name begins with. -/

section roots

variable {known : TypeTerm → Prop} {t u : TypeTerm}

def root : TypeTerm → TypeTerm
  | noneClass => none
  | aliasOf _ origin => origin
  | applied _ origin _ => origin
  | literal _ => form "Literal"
  | t => t

def rootName : TypeTerm → String
  | none => "None"
  | ellipsis => "..."
  | t => (label? t).getD ""

def IsRoot (known : TypeTerm → Prop) (t : TypeTerm) : Prop :=
  known t ∨ t = none ∨ t = ellipsis ∨ t = anyClass ∨ t = form "Literal"

theorem rootName_of_label {name : String} (h : label? t = some name) : rootName t = name := by
  cases t <;> simp_all [label?, rootName]

theorem rootName_reserved
    (h : t = none ∨ t = ellipsis ∨ t = anyClass ∨ t = form "Literal") : rootName t ∈ reserved := by
  obtain rfl | rfl | rfl | rfl := h <;> decide

theorem IsRoot.word (distinct : Distinct known) (h : IsRoot known t) :
    rootName t ≠ "" ∧ ∀ c ∈ (rootName t).toList, inName c = true := by
  obtain h | h := h
  · obtain ⟨name, label, filled, word, -⟩ := distinct.proper h
    rw [rootName_of_label label]
    exact ⟨filled, List.all_eq_true.1 word⟩
  · have words : ∀ name ∈ reserved, name ≠ "" ∧ name.toList.all inName := by decide
    obtain ⟨filled, word⟩ := words _ (rootName_reserved h)
    exact ⟨filled, List.all_eq_true.1 word⟩

theorem rootName_inj (distinct : Distinct known) (ht : IsRoot known t) (hu : IsRoot known u)
    (h : rootName t = rootName u) : t = u := by
  have free {t u : TypeTerm} (ht : known t)
      (hu : u = none ∨ u = ellipsis ∨ u = anyClass ∨ u = form "Literal") : rootName t ≠ rootName u := by
    obtain ⟨name, label, -, -, unreserved⟩ := distinct.proper ht
    intro same
    rw [rootName_of_label label] at same
    exact unreserved (same ▸ rootName_reserved hu)
  obtain ht | ht := ht <;> obtain hu | hu := hu
  · obtain ⟨name, label, -⟩ := distinct.proper ht
    obtain ⟨name', label', -⟩ := distinct.proper hu
    rw [rootName_of_label label, rootName_of_label label'] at h
    exact distinct.apart ht hu (by rw [label, label', h])
  · exact absurd h (free ht hu)
  · exact absurd h.symm (free hu ht)
  · obtain rfl | rfl | rfl | rfl := ht <;> obtain rfl | rfl | rfl | rfl := hu <;>
      first | rfl | exact absurd h (by decide)

end roots

/-! What comes after it. -/

section tails

variable {known : TypeTerm → Prop} {t u : TypeTerm}

theorem exists_forall₂ {α β : Type} {R : α → β → Prop} {l : List α} (h : ∀ a ∈ l, ∃ b, R a b) :
    ∃ bs, List.Forall₂ R l bs := by
  induction l with
  | nil => exact ⟨[], .nil⟩
  | cons a l ih =>
    obtain ⟨b, first⟩ := h a List.mem_cons_self
    obtain ⟨bs, rest⟩ := ih fun a' ha => h a' (List.mem_cons_of_mem a ha)
    exact ⟨b :: bs, .cons first rest⟩

theorem ownName_of_definition (h : t.isDefinition = true) :
    ownName t = .ok (rootName t) ∧ sourceName t = .ok (rootName t) ∧ root t = t ∧ unspelled t = t := by
  cases t <;> first | exact ⟨rfl, rfl, rfl, rfl⟩ | cases h

theorem sourceName_of_label {name : String} (h : label? t = some name) :
    sourceName t = .ok name ∧ root t = t ∧ unspelled t = t ∧ t.isUnion = false := by
  cases t <;> first | exact ⟨congrArg Except.ok (Option.some.inj h), rfl, rfl, rfl⟩ | cases h

inductive Tail : TypeTerm → String → Prop
  | bare {t : TypeTerm} (h : unspelled t = root t) : Tail t ""
  | applied (spelled : Option String) (origin : TypeTerm) {as : List TypeTerm} {names : List String}
      (named : argumentNames as = .ok names) :
      Tail (applied spelled origin as) ("[" ++ ", ".intercalate names ++ "]")
  | literal (values : List Datum) :
      Tail (literal values) ("[" ++ ", ".intercalate (values.map Datum.quoted) ++ "]")

theorem argumentName_of_listed {a : TypeTerm} (h : ∀ t ∈ listed a, ∃ name, sourceName t = .ok name) :
    ∃ name, argumentName a = .ok name := by
  cases a with
  | items ts =>
    obtain ⟨names, named⟩ := exists_forall₂ h
    have list : sourceNames ts = .ok names := sourceNames_eq_ok.2 named
    exact ⟨_, by rw [argumentName, list]; rfl⟩
  | _ => exact h _ List.mem_cons_self

theorem sourceName_applied {spelled : Option String} {origin : TypeTerm} {as : List TypeTerm}
    {names : List String} (definition : origin.isDefinition = true) (given : as ≠ [])
    (named : argumentNames as = .ok names) :
    sourceName (applied spelled origin as) =
      .ok (rootName origin ++ ("[" ++ ", ".intercalate names ++ "]")) := by
  obtain ⟨a, as, rfl⟩ := List.exists_cons_of_ne_nil given
  rw [sourceName, (ownName_of_definition definition).1, named]
  simp only [bind, Except.bind, String.append_assoc]

theorem Built.exists_sourceName (distinct : Distinct known) (built : Built known t) :
    ∃ name, sourceName t = .ok name := by
  induction built with
  | none | noneClass | ellipsis | any | literal => exact ⟨_, rfl⟩
  | leaf h =>
    obtain ⟨name, label, -⟩ := distinct.proper h
    exact ⟨name, (sourceName_of_label label).1⟩
  | bareAlias spelled h definition =>
    exact ⟨_, by rw [sourceName, (ownName_of_definition definition).1]⟩
  | applied spelled h definition given each ih =>
    obtain ⟨names, named⟩ := exists_forall₂ fun a ha => argumentName_of_listed (ih a ha)
    exact ⟨_, sourceName_applied definition given (argumentNames_eq_ok.2 named)⟩
  | union style several flat each ih =>
    obtain ⟨names, named⟩ := exists_forall₂ ih
    exact ⟨_, by rw [sourceName, sourceNames_eq_ok.2 named]; rfl⟩

theorem Built.exists_argumentName (distinct : Distinct known) {a : TypeTerm}
    (each : ∀ t ∈ listed a, Built known t) : ∃ name, argumentName a = .ok name :=
  argumentName_of_listed fun t ht => (each t ht).exists_sourceName distinct

theorem Built.sourceName_single (distinct : Distinct known) (built : Built known t)
    (single : t.isUnion = false) :
    IsRoot known (root t) ∧ ∃ tail, sourceName t = .ok (rootName (root t) ++ tail) ∧ Tail t tail := by
  cases built with
  | none => exact ⟨.inr (.inl rfl), "", rfl, .bare rfl⟩
  | noneClass => exact ⟨.inr (.inl rfl), "", rfl, .bare rfl⟩
  | ellipsis => exact ⟨.inr (.inr (.inl rfl)), "", rfl, .bare rfl⟩
  | any => exact ⟨.inr (.inr (.inr (.inl rfl))), "", rfl, .bare rfl⟩
  | leaf h =>
    obtain ⟨name, label, -⟩ := distinct.proper h
    obtain ⟨named, rooted, plain, -⟩ := sourceName_of_label label
    rw [rooted, rootName_of_label label, named]
    exact ⟨.inl h, "", by rw [String.append_empty], .bare (by rw [plain, rooted])⟩
  | bareAlias spelled h definition =>
    refine ⟨.inl h, "", ?_, .bare rfl⟩
    rw [sourceName, (ownName_of_definition definition).1, String.append_empty]
    rfl
  | @applied spelled origin as h definition given each =>
    obtain ⟨names, named⟩ :=
      exists_forall₂ fun a ha => Built.exists_argumentName distinct (each a ha)
    have args := argumentNames_eq_ok.2 named
    exact ⟨.inl h, _, sourceName_applied definition given args, .applied spelled origin args⟩
  | union => cases single
  | literal h =>
    refine ⟨.inr (.inr (.inr (.inr rfl))), _, ?_, .literal _⟩
    have opens : "typing.Literal[" = rootName (form "Literal") ++ "[" := by decide
    rw [sourceName, opens, String.append_assoc, String.append_assoc]
    rfl

end tails

section parts

variable {known : TypeTerm → Prop} {t : TypeTerm}

theorem Built.sourceName_singles (distinct : Distinct known) (built : Built known t) {name : String}
    (named : sourceName t = .ok name) : ∃ names,
      List.Forall₂ (fun t name => sourceName t = .ok name) (singles t) names ∧
        name.toList = (" | ".toList).intercalate (names.map String.toList) := by
  obtain single | ⟨style, ts, rfl, -⟩ := built.isUnion_cases distinct
  · rw [singles_of_not_union single]
    exact ⟨[name], .cons named .nil, by simp⟩
  · rw [sourceName] at named
    obtain ⟨names, list, same⟩ := bind_eq_ok.1 named
    obtain rfl := Except.ok.inj same
    exact ⟨names, sourceNames_eq_ok.1 list, String.toList_intercalate⟩

theorem forall₂_names {R : TypeTerm → String → Prop} {Q : List Char → TypeTerm → Prop}
    {ts : List TypeTerm} {names : List String} (h : List.Forall₂ R ts names)
    (each : ∀ t ∈ ts, ∀ name, R t name → Q name.toList (unspelled t)) :
    List.Forall₂ Q (names.map String.toList) (ts.map unspelled) := by
  induction h with
  | nil => exact .nil
  | cons first rest ih =>
    exact .cons (each _ List.mem_cons_self _ first)
      (ih fun t ht => each t (List.mem_cons_of_mem _ ht))

theorem Built.sourceName_head (distinct : Distinct known) (built : Built known t) {name : String}
    (named : sourceName t = .ok name) : ∃ c rest, name.toList = c :: rest ∧ inName c = true := by
  obtain ⟨several, members, -⟩ := built.of_singles distinct
  obtain ⟨names, parts, text⟩ := built.sourceName_singles distinct named
  generalize singles t = ts at several members parts
  cases parts with
  | nil => exact absurd rfl several
  | @cons x first ts names namedx parts =>
    obtain ⟨builtx, single⟩ := members x List.mem_cons_self
    obtain ⟨rooted, tail, shape, -⟩ := builtx.sourceName_single distinct single
    obtain ⟨filled, word⟩ := rooted.word distinct
    rw [namedx] at shape
    obtain rfl := Except.ok.inj shape
    obtain ⟨c, more, letters⟩ := List.exists_cons_of_ne_nil (mt String.toList_eq_nil_iff.1 filled)
    obtain ⟨rest, front, -⟩ := Text.intercalate_cons_append (" | ".toList)
      (rootName (root x) ++ tail).toList [] (names.map String.toList)
    rw [List.append_nil, String.toList_append, letters, List.append_assoc] at front
    rw [List.map_cons, String.toList_append, letters, front] at text
    exact ⟨c, _, text, word c (letters ▸ List.mem_cons_self)⟩

theorem argument_cases (a : TypeTerm) :
    (∃ ts, a = items ts) ∨ listed a = [a] ∧ argumentName a = sourceName a := by
  cases a <;> first | exact .inl ⟨_, rfl⟩ | exact .inr ⟨rfl, rfl⟩

theorem argumentName_items {ts : List TypeTerm} {name : String}
    (h : argumentName (items ts) = .ok name) : ∃ names,
      List.Forall₂ (fun t name => sourceName t = .ok name) ts names ∧
        name.toList = '[' :: ((", ".toList).intercalate (names.map String.toList) ++ [']']) := by
  rw [argumentName] at h
  obtain ⟨names, list, same⟩ := bind_eq_ok.1 h
  obtain rfl := Except.ok.inj same
  exact ⟨names, sourceNames_eq_ok.1 list, by simp [String.toList_intercalate]⟩

end parts

/-! Names without regard to spelling. -/

section spelling

variable {known : TypeTerm → Prop} {t : TypeTerm}

theorem sourceNames_congr {ts : List TypeTerm} (h : ∀ t ∈ ts, sourceName (unspelled t) = sourceName t) :
    sourceNames (ts.map unspelled) = sourceNames ts := by
  induction ts with
  | nil => rfl
  | cons t ts ih =>
    rw [List.map_cons, sourceNames, sourceNames, h t List.mem_cons_self,
      ih fun u hu => h u (List.mem_cons_of_mem t hu)]

theorem argumentNames_congr {as : List TypeTerm}
    (h : ∀ a ∈ as, argumentName (unspelled a) = argumentName a) :
    argumentNames (as.map unspelled) = argumentNames as := by
  induction as with
  | nil => rfl
  | cons a as ih =>
    rw [List.map_cons, argumentNames_cons, argumentNames_cons, h a List.mem_cons_self,
      ih fun b hb => h b (List.mem_cons_of_mem a hb)]

theorem argumentName_congr {a : TypeTerm}
    (h : ∀ t ∈ listed a, sourceName (unspelled t) = sourceName t) :
    argumentName (unspelled a) = argumentName a := by
  cases a with
  | items ts =>
    have list : sourceNames (ts.map unspelled) = sourceNames ts := sourceNames_congr h
    rw [unspelled, unspelledItems_eq_map, argumentName, argumentName, list]
  | aliasOf spelled origin =>
    have whole := h _ List.mem_cons_self
    cases origin with
    | items => cases whole
    | _ => exact whole
  | _ => exact h _ List.mem_cons_self

theorem Built.sourceName_unspelled (distinct : Distinct known) (built : Built known t) :
    sourceName (unspelled t) = sourceName t := by
  induction built with
  | none | noneClass | ellipsis | any | literal => rfl
  | leaf h =>
    obtain ⟨name, label, -⟩ := distinct.proper h
    rw [(sourceName_of_label label).2.2.1]
  | bareAlias spelled h definition =>
    obtain ⟨own, name, -⟩ := ownName_of_definition definition
    rw [unspelled, sourceName, own, name]
  | @applied spelled origin as h definition given each ih =>
    obtain ⟨a, as, rfl⟩ := List.exists_cons_of_ne_nil given
    have args := argumentNames_congr fun a ha => argumentName_congr (ih a ha)
    rw [unspelled, unspelledItems_eq_map]
    rw [List.map_cons] at args ⊢
    rw [sourceName, sourceName, args]
  | union style several flat each ih =>
    rw [unspelled, unspelledItems_eq_map, sourceName, sourceName, sourceNames_congr ih]

end spelling

end Stencil.TypeTerm
