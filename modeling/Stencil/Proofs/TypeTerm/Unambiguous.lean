import Stencil.Proofs.TypeTerm.Shape

/-!
Source names of types are unambiguous: two types of one name are one type in two spellings. A type that
is not a union begins with a word, its root; what follows is told by the first bracket, and a union by
the bars between its members. So a name can be read from the front, whatever comes after it, and the
reading goes down into the arguments (`sourceName_eq_iff`).
-/

namespace Stencil.TypeTerm

open Text (Legible EndsAt)

/-! Reading a name from the front. -/

section reading

variable {known : TypeTerm → Prop} {t u : TypeTerm}

def Names (known : TypeTerm → Prop) (x : List Char) (plain : TypeTerm) : Prop :=
  ∃ t name, Built known t ∧ sourceName t = .ok name ∧ name.toList = x ∧ unspelled t = plain

def NamesSingle (known : TypeTerm → Prop) (x : List Char) (plain : TypeTerm) : Prop :=
  ∃ t name, (Built known t ∧ t.isUnion = false) ∧ sourceName t = .ok name ∧ name.toList = x ∧
    unspelled t = plain

def NamesArgument (known : TypeTerm → Prop) (x : List Char) (plain : TypeTerm) : Prop :=
  ∃ a name, (∀ t ∈ listed a, Built known t) ∧ argumentName a = .ok name ∧ name.toList = x ∧
    unspelled a = plain

/-- The name of a member is told from what follows it in a union or in a list of arguments. -/
def LegibleSingle (known : TypeTerm → Prop) (t : TypeTerm) : Prop :=
  ∀ name, sourceName t = .ok name →
    Legible [' ', ',', ']'] (NamesSingle known) name.toList (unspelled t)

def LegibleArgument (known : TypeTerm → Prop) (a : TypeTerm) : Prop :=
  ∀ name, argumentName a = .ok name →
    Legible [',', ']'] (NamesArgument known) name.toList (unspelled a)

/-! One lemma for each level: members of unions, types, arguments. -/

theorem legible_type (distinct : Distinct known) (built : Built known t) {name : String}
    (named : sourceName t = .ok name) (each : ∀ x ∈ singles t, LegibleSingle known x) :
    Legible [',', ']'] (Names known) name.toList (unspelled t) := by
  rintro y plain r s ⟨u, other, built', named', rfl, rfl⟩ hr hs h
  obtain ⟨several, -, same⟩ := built.of_singles distinct
  obtain ⟨several', members', same'⟩ := built'.of_singles distinct
  obtain ⟨names, parts, text⟩ := built.sourceName_singles distinct named
  obtain ⟨names', parts', text'⟩ := built'.sourceName_singles distinct named'
  rw [text, text'] at h
  have means := forall₂_names (Q := NamesSingle known) parts'
    fun x hx name namedx => ⟨x, name, members' x hx, namedx, rfl, rfl⟩
  have filled {ts : List TypeTerm} {names : List String} {R : TypeTerm → String → Prop}
      (parts : List.Forall₂ R ts names) (several : ts ≠ []) : names.map String.toList ≠ [] := by
    rintro none
    obtain rfl := List.map_eq_nil_iff.1 none
    cases parts
    exact several rfl
  have noSpace {z : List Char} (ends : EndsAt [',', ']'] z) : z.head? ≠ some ' ' :=
    fun first => absurd (ends ' ' first) (by decide)
  have wider {z : List Char} (ends : EndsAt [',', ']'] z) : EndsAt [' ', ',', ']'] z :=
    ends.mono (List.subset_cons_self _ _)
  obtain ⟨list, after⟩ := Text.joined_append_inj List.mem_cons_self (forall₂_names parts each) means
    (filled parts several) (filled parts' several') (wider hr) (wider hs) (noSpace hr) (noSpace hs) h
  exact ⟨by rw [same, same', list], after⟩

theorem Names.head_ne (distinct : Distinct known) {y : List Char} {plain : TypeTerm}
    (h : Names known y plain) (z : List Char) : (y ++ z).head? ≠ some ']' := by
  obtain ⟨t, name, built, named, rfl, -⟩ := h
  obtain ⟨c, rest, text, letter⟩ := built.sourceName_head distinct named
  rw [text]
  rintro ⟨⟩
  cases letter

theorem NamesArgument.head_ne (distinct : Distinct known) {y : List Char} {plain : TypeTerm}
    (h : NamesArgument known y plain) (z : List Char) : (y ++ z).head? ≠ some ']' := by
  obtain ⟨a, name, each, named, rfl, -⟩ := h
  obtain ⟨ts, rfl⟩ | ⟨only, same⟩ := argument_cases a
  · obtain ⟨names, -, text⟩ := argumentName_items named
    simp [text]
  · rw [same] at named
    exact Names.head_ne distinct
      ⟨a, name, each a (only ▸ List.mem_singleton_self a), named, rfl, rfl⟩ z

theorem legible_argument (distinct : Distinct known) {a : TypeTerm}
    (each : ∀ t ∈ listed a, Built known t)
    (reads : ∀ t ∈ listed a, ∀ name, sourceName t = .ok name →
      Legible [',', ']'] (Names known) name.toList (unspelled t)) : LegibleArgument known a := by
  rintro name named y plain r s ⟨b, other, each', named', rfl, rfl⟩ hr hs h
  -- A list of parameters is not mistaken for a type: no name begins with a bracket.
  have differ {t : TypeTerm} {name : String} {rest after : List Char} (built : Built known t)
      (named : sourceName t = .ok name) : name.toList ++ after ≠ '[' :: rest := by
    obtain ⟨c, more, text, letter⟩ := built.sourceName_head distinct named
    rw [text]
    rintro same
    rw [(List.cons.inj same).1] at letter
    cases letter
  obtain ⟨ts, rfl⟩ | ⟨only, same⟩ := argument_cases a <;>
    obtain ⟨us, rfl⟩ | ⟨only', same'⟩ := argument_cases b
  · obtain ⟨names, parts, text⟩ := argumentName_items named
    obtain ⟨names', parts', text'⟩ := argumentName_items named'
    rw [text, text', List.cons_append, List.cons_append, List.append_assoc, List.append_assoc] at h
    have means := forall₂_names (Q := Names known) parts fun t ht name named =>
      ⟨t, name, each t ht, named, rfl, rfl⟩
    have others := forall₂_names (Q := Names known) parts' fun t ht name named =>
      ⟨t, name, each' t ht, named, rfl, rfl⟩
    obtain ⟨list, after⟩ := Text.bracketed_append_inj List.mem_cons_self
      (List.mem_cons_of_mem _ List.mem_cons_self) (by decide) (forall₂_names parts reads) means others
      (fun _ _ z h => Names.head_ne distinct h z) (List.cons.inj h).2
    exact ⟨by simp [unspelled, list], after⟩
  · obtain ⟨names, -, text⟩ := argumentName_items named
    rw [same'] at named'
    rw [text] at h
    exact absurd h.symm (differ (each' b (only' ▸ List.mem_singleton_self b)) named')
  · obtain ⟨names, -, text⟩ := argumentName_items named'
    rw [same] at named
    rw [text] at h
    exact absurd h (differ (each a (only ▸ List.mem_singleton_self a)) named)
  · rw [same] at named
    rw [same'] at named'
    exact reads a (only ▸ List.mem_singleton_self a) name named _ _ r s
      ⟨b, other, each' b (only' ▸ List.mem_singleton_self b), named', rfl, rfl⟩ hr hs h

theorem Tail.endsAt {tail : String} (h : Tail t tail) {r : List Char}
    (hr : EndsAt [' ', ',', ']'] r) : EndsAt punctuation (tail.toList ++ r) := by
  cases h with
  | bare => exact hr.mono (by decide)
  | applied | literal =>
    intro c first
    rw [String.toList_append, String.toList_append] at first
    obtain rfl : '[' = c := Option.some.inj first
    decide

theorem ne_bracket {z more : List Char} {list : String} (ends : EndsAt [' ', ',', ']'] z) :
    z ≠ ("[" ++ list ++ "]").toList ++ more := by
  intro begins
  have first : '[' ∈ z.head? := by simp [begins]
  exact absurd (ends '[' first) (by decide)

theorem bracketed_inj {xs ys : List String} {r s : List Char}
    (h : ("[" ++ ", ".intercalate xs ++ "]").toList ++ r =
      ("[" ++ ", ".intercalate ys ++ "]").toList ++ s) :
    (", ".toList).intercalate (xs.map String.toList) ++ ']' :: r =
      (", ".toList).intercalate (ys.map String.toList) ++ ']' :: s := by
  simpa [String.toList_append, String.toList_intercalate] using h

theorem arguments_agree (distinct : Distinct known) {as bs : List TypeTerm} {names names' : List String}
    {r s : List Char} (each : ∀ a ∈ as, ∀ t ∈ listed a, Built known t)
    (each' : ∀ b ∈ bs, ∀ t ∈ listed b, Built known t) (args : ∀ a ∈ as, LegibleArgument known a)
    (named : argumentNames as = .ok names) (named' : argumentNames bs = .ok names')
    (h : ("[" ++ ", ".intercalate names ++ "]").toList ++ r =
      ("[" ++ ", ".intercalate names' ++ "]").toList ++ s) :
    as.map unspelled = bs.map unspelled ∧ r = s := by
  have means {as : List TypeTerm} (each : ∀ a ∈ as, ∀ t ∈ listed a, Built known t) :
      ∀ a ∈ as, ∀ name, argumentName a = .ok name → NamesArgument known name.toList (unspelled a) :=
    fun a ha name named => ⟨a, name, each a ha, named, rfl, rfl⟩
  have parts := argumentNames_eq_ok.1 named
  have parts' := argumentNames_eq_ok.1 named'
  exact Text.bracketed_append_inj List.mem_cons_self (List.mem_cons_of_mem _ List.mem_cons_self)
    (by decide) (forall₂_names parts args) (forall₂_names parts (means each))
    (forall₂_names parts' (means each')) (fun _ _ z h => NamesArgument.head_ne distinct h z)
    (bracketed_inj h)

theorem literals_agree {vs ws : List Datum} {r s : List Char} (literals : ∀ v ∈ vs, v.isLiteral = true)
    (literals' : ∀ w ∈ ws, w.isLiteral = true)
    (h : ("[" ++ ", ".intercalate (vs.map Datum.quoted) ++ "]").toList ++ r =
      ("[" ++ ", ".intercalate (ws.map Datum.quoted) ++ "]").toList ++ s) : vs = ws ∧ r = s := by
  have quotes {vs : List Datum} (h : ∀ v ∈ vs, v.isLiteral = true) :
      ∀ v ∈ vs, Datum.Quotes v.quoted.toList v := fun v hv => ⟨h v hv, rfl⟩
  exact Text.bracketed_append_inj List.mem_cons_self (List.mem_cons_of_mem _ List.mem_cons_self)
    (by decide) (Datum.forall₂_quoted fun v hv => Datum.legible_quoted (literals v hv))
    (Datum.forall₂_quoted (quotes literals)) (Datum.forall₂_quoted (quotes literals'))
    (fun _ _ z h => h.head_ne z) (bracketed_inj h)

theorem Tail.agree (distinct : Distinct known) {tail tail' : String} {r s : List Char}
    (built : Built known t) (built' : Built known u) (h : Tail t tail) (h' : Tail u tail')
    (same : root t = root u) (args : ∀ a ∈ arguments t, LegibleArgument known a)
    (hr : EndsAt [' ', ',', ']'] r) (hs : EndsAt [' ', ',', ']'] s)
    (rest : tail.toList ++ r = tail'.toList ++ s) : unspelled t = unspelled u ∧ r = s := by
  cases h with
  | bare plain =>
    cases h' with
    | bare plain' => exact ⟨by rw [plain, plain', same], rest⟩
    | applied | literal => exact absurd rest (ne_bracket hr)
  | @applied spelled origin as names named =>
    obtain ⟨notLiteral, each⟩ := built.of_applied distinct
    cases h' with
    | bare => exact absurd rest.symm (ne_bracket hs)
    | @applied spelled' origin' bs names' named' =>
      obtain ⟨-, each'⟩ := built'.of_applied distinct
      obtain rfl : origin = origin' := same
      obtain ⟨list, after⟩ := arguments_agree distinct each each' args named named' rest
      exact ⟨by simp [unspelled, list], after⟩
    | literal => exact absurd same notLiteral
  | literal values =>
    cases h' with
    | bare => exact absurd rest.symm (ne_bracket hs)
    | applied spelled origin named => exact absurd same.symm (built'.of_applied distinct).1
    | literal values' =>
      obtain ⟨list, after⟩ :=
        literals_agree (built.of_literal distinct) (built'.of_literal distinct) rest
      exact ⟨by rw [list], after⟩

theorem legible_single (distinct : Distinct known) (built : Built known t)
    (single : t.isUnion = false) (args : ∀ a ∈ arguments t, LegibleArgument known a) :
    LegibleSingle known t := by
  rintro name named y plain r s ⟨u, other, ⟨built', single'⟩, named', rfl, rfl⟩ hr hs h
  obtain ⟨rooted, tail, shape, after⟩ := built.sourceName_single distinct single
  obtain ⟨rooted', tail', shape', after'⟩ := built'.sourceName_single distinct single'
  rw [named] at shape
  rw [named'] at shape'
  obtain rfl := Except.ok.inj shape
  obtain rfl := Except.ok.inj shape'
  rw [String.toList_append, String.toList_append, List.append_assoc, List.append_assoc] at h
  obtain ⟨word, rest⟩ := Text.word_append_inj (by simp [inName, punctuation])
    (rooted.word distinct).2 (rooted'.word distinct).2 (after.endsAt hr) (after'.endsAt hs) h
  have same := rootName_inj distinct rooted rooted' (String.toList_inj.1 word)
  exact after.agree distinct built built' after' same args hr hs rest

theorem Built.legible (distinct : Distinct known) (built : Built known t) :
    ∀ x ∈ singles t, LegibleSingle known x := by
  have plain {t : TypeTerm} (built : Built known t) (single : t.isUnion = false)
      (alone : arguments t = []) : ∀ x ∈ singles t, LegibleSingle known x := by
    intro x hx
    rw [singles_of_not_union single] at hx
    rw [List.mem_singleton.1 hx]
    exact legible_single distinct built single (by simp [alone])
  induction built with
  | none => exact plain .none rfl rfl
  | noneClass => exact plain .noneClass rfl rfl
  | ellipsis => exact plain .ellipsis rfl rfl
  | any => exact plain .any rfl rfl
  | @leaf t h =>
    obtain ⟨name, label, -⟩ := distinct.proper h
    have alone : arguments t = [] := by
      cases t <;> first | rfl | cases label
    exact plain (.leaf h) (sourceName_of_label label).2.2.2 alone
  | bareAlias spelled h definition => exact plain (.bareAlias spelled h definition) rfl rfl
  | applied spelled h definition given each ih =>
    intro x hx
    rw [List.mem_singleton.1 hx]
    refine legible_single distinct (.applied spelled h definition given each) rfl fun a ha => ?_
    exact legible_argument distinct (each a ha) fun t ht name named =>
      legible_type distinct (each a ha t ht) named (ih a ha t ht)
  | union style several flat each ih =>
    intro x hx
    exact ih x hx x (by rw [singles_of_not_union (flat x hx)]; exact List.mem_singleton_self x)
  | literal h => exact plain (.literal h) rfl rfl

end reading

section names

variable {known : TypeTerm → Prop} {t u : TypeTerm}

/-- Types that are built from distinct ones have names, and the names agree only if the types do, up
to the spelling of aliases and unions. -/
theorem sourceName_eq_iff (distinct : Distinct known) (ht : Built known t) (hu : Built known u) :
    ∃ name other, sourceName t = .ok name ∧ sourceName u = .ok other ∧
      (name = other ↔ unspelled t = unspelled u) := by
  obtain ⟨name, named⟩ := ht.exists_sourceName distinct
  obtain ⟨other, named'⟩ := hu.exists_sourceName distinct
  refine ⟨name, other, named, named', fun same => ?_, fun same => ?_⟩
  · have reading := legible_type distinct ht named (ht.legible distinct)
    have nothing := Text.endsAt_nil [',', ']']
    exact (reading _ _ [] [] ⟨u, other, hu, named', rfl, rfl⟩ nothing nothing (by rw [same])).1
  · have names := congrArg sourceName same
    rw [ht.sourceName_unspelled distinct, hu.sourceName_unspelled distinct, named, named'] at names
    exact Except.ok.inj names

def IsPlain (t : TypeTerm) : Prop :=
  t = builtin "int" ∨ t = builtin "list" ∨ t = plainClass "collections.abc" "Callable" ∨ t = free "T"

theorem distinct_isPlain : Distinct IsPlain where
  proper := by
    rintro t (rfl | rfl | rfl | rfl) <;>
      exact ⟨_, rfl, isProper_of_isDotted (by decide) (by decide)⟩
  apart := by
    rintro t u (rfl | rfl | rfl | rfl) (rfl | rfl | rfl | rfl) same <;>
      first | rfl | exact absurd same (by decide)

def handler (spelled : Option String) (style : UnionStyle) (absent : TypeTerm)
    (values : List Datum) : TypeTerm :=
  applied spelled (plainClass "collections.abc" "Callable")
    [items [union style [builtin "int", absent], free "T"],
      applied (spelled.map fun _ => "List") (builtin "list") [literal values]]

theorem built_handler (spelled : Option String) (style : UnionStyle) {absent : TypeTerm}
    (h : absent = none ∨ absent = noneClass) {values : List Datum}
    (literals : ∀ v ∈ values, v.isLiteral = true) :
    Built IsPlain (handler spelled style absent values) := by
  have int : Built IsPlain (builtin "int") := .leaf (.inl rfl)
  have missing : Built IsPlain absent ∧ absent.isUnion = false := by
    obtain rfl | rfl := h
    · exact ⟨.none, rfl⟩
    · exact ⟨.noneClass, rfl⟩
  have optional : Built IsPlain (union style [builtin "int", absent]) := by
    refine .union style (Nat.le_refl 2) ?_ ?_
    · simp only [List.forall_mem_cons]
      exact ⟨rfl, missing.2, by simp⟩
    · simpa using ⟨int, missing.1⟩
  have unbound : Built IsPlain (free "T") := .leaf (.inr (.inr (.inr rfl)))
  have listOf : Built IsPlain
      (applied (spelled.map fun _ => "List") (builtin "list") [literal values]) := by
    refine .applied _ (.inr (.inl rfl)) rfl (by simp) ?_
    simpa [listed] using .literal literals
  refine .applied spelled (.inr (.inr (.inl rfl))) rfl (by simp) ?_
  simp [listed, optional, unbound, listOf]

/-- Punctuation inside of texts and other spellings are no obstacle. -/
theorem sourceName_eq_iff_handler :
    let values := [.text "a' | b], [", .bytes [39, 44], .int (-1), .bool true, .null]
    let long := handler (some "Callable") .named noneClass values
    let short := handler Option.none .bar none values
    Distinct IsPlain ∧ Built IsPlain long ∧ Built IsPlain short ∧ unspelled long = unspelled short ∧
      ∃ name, sourceName long = .ok name ∧ sourceName short = .ok name := by
  intro values long short
  have literals : ∀ v ∈ values, v.isLiteral = true := by simp [values, Datum.isLiteral]
  have ht : Built IsPlain long := built_handler _ _ (.inr rfl) literals
  have hu : Built IsPlain short := built_handler _ _ (.inl rfl) literals
  have same : unspelled long = unspelled short := rfl
  obtain ⟨name, other, named, named', agree⟩ := sourceName_eq_iff distinct_isPlain ht hu
  obtain rfl := agree.2 same
  exact ⟨distinct_isPlain, ht, hu, same, name, named, named'⟩

end names

end Stencil.TypeTerm
