import Mathlib.Data.List.Forall2
import Stencil.Proofs.Datum.Fields
import Stencil.Proofs.Json.Quoted
import Stencil.Proofs.Text.Legible

/-!
Data that JSON text keeps: what is written for it is one line of printable ASCII, and is read back as
the same datum (`Json.read_write`). Values are read from the front, whatever comes after them in
a list or table, so the proof follows the datum.
-/

namespace Stencil

namespace Datum

/-- Data that JSON has a form for: the names of values, integers, texts, and lists and tables of such
data, where the keys of a table are distinct texts. -/
inductive Portable : Datum → Prop
  | null : Portable null
  | bool (b : Bool) : Portable (bool b)
  | int (i : Int) : Portable (int i)
  | text (s : String) : Portable (text s)
  | list {items : List Datum} (each : ∀ d ∈ items, Portable d) : Portable (list items)
  | table {fields : List (String × Datum)} (distinct : (fields.map Prod.fst).Nodup)
      (each : ∀ f ∈ fields, Portable f.2) : Portable (ofFields fields)

end Datum

namespace Json

open Text (EndsAt endsAt_cons)

def stops : List Char := [',', ']', '\x7d']

/-- A text that spells a datum: printable, not begun like a gap or an end, and read as the datum. -/
structure Spells (d : Datum) (t : List Char) : Prop where
  printable : ∀ c ∈ t, IsPrintable c
  opens : ∃ c rest, t = c :: rest ∧ isSpace c = false ∧ c ≠ ']'
  reads : ∀ {fuel : Nat} {rest : List Char}, t.length ≤ fuel → EndsAt stops rest →
    value fuel (t ++ rest) = .ok (d, rest)

theorem skip_cons {c : Char} (h : isSpace c = false) (rest : List Char) :
    skip (c :: rest) = c :: rest := by
  rw [skip, List.dropWhile_cons, h, if_neg Bool.false_ne_true]

theorem Spells.skip {d : Datum} {t : List Char} (h : Spells d t) (rest : List Char) :
    skip (t ++ rest) = t ++ rest := by
  obtain ⟨c, tail, rfl, space, -⟩ := h.opens
  exact skip_cons space _

section numbers

variable {rest : List Char}

theorem digitValue?_of_isDigit {c : Char} (h : c.isDigit = true) :
    Decimal.digitValue? c = some (c.toNat - '0'.toNat) := by
  have digit : '0' ≤ c ∧ c ≤ '9' := by simpa [Char.isDigit, Char.le_def] using h
  rw [Decimal.digitValue?, if_pos digit]

theorem natOfDigits_filterMap {ds : List Char} (digits : ∀ c ∈ ds, c.isDigit = true) :
    Decimal.natOfDigits (ds.filterMap Decimal.digitValue?) = Nat.ofDigitChars 10 ds 0 := by
  unfold Decimal.natOfDigits
  generalize 0 = start
  induction ds generalizing start with
  | nil => rw [List.filterMap_nil, List.foldl_nil, Nat.ofDigitChars_nil]
  | cons c ds ih =>
    rw [List.filterMap_cons, digitValue?_of_isDigit (digits c List.mem_cons_self)]
    dsimp only
    rw [List.foldl_cons, ih fun d hd => digits d (List.mem_cons_of_mem c hd), Nat.ofDigitChars_cons,
      Nat.mul_comm]

theorem exists_digits (n : Nat) :
    ∃ c ds, Nat.toDigits 10 n = c :: ds ∧ (∀ d ∈ c :: ds, d.isDigit = true) ∧ (c = '0' → ds = []) := by
  have digits : ∀ d ∈ Nat.toDigits 10 n, d.isDigit = true := fun d hd =>
    Nat.isDigit_of_mem_toDigits (by decide) (by decide) hd
  induction n using Nat.strong_induction_on with
  | _ n ih =>
    obtain few | many := Nat.lt_or_ge n 10
    · rw [Nat.toDigits_of_lt_base few] at digits ⊢
      exact ⟨_, [], rfl, digits, fun _ => rfl⟩
    · obtain ⟨c, ds, front, -, alone⟩ := ih (n / 10) (by omega) fun d hd =>
        Nat.isDigit_of_mem_toDigits (by decide) (by decide) hd
      have shape : Nat.toDigits 10 n = c :: (ds ++ [(n % 10).digitChar]) := by
        rw [Nat.toDigits_of_base_le (by decide) many, front, List.cons_append]
      rw [shape] at digits
      refine ⟨c, _, shape, digits, fun zero => ?_⟩
      obtain rfl := alone zero
      subst zero
      have value := Nat.ofDigitChars_toDigits (b := 10) (n := n / 10) (by decide) (by decide)
      rw [front] at value
      have none : Nat.ofDigitChars 10 ['0'] 0 = 0 := rfl
      omega

theorem isDigit_of_endsAt (ends : EndsAt stops rest) : ∀ c ∈ rest.head?, c.isDigit = false := by
  have known : ∀ c ∈ stops, c.isDigit = false := by simp [stops]
  exact fun c hc => known c (ends c hc)

theorem cases_of_endsAt (ends : EndsAt stops rest) :
    rest = [] ∨ ∃ c tail, rest = c :: tail ∧ c ≠ '.' ∧ c ≠ 'e' ∧ c ≠ 'E' := by
  have known : ∀ c ∈ stops, c ≠ '.' ∧ c ≠ 'e' ∧ c ≠ 'E' := by simp [stops]
  cases rest with
  | nil => exact .inl rfl
  | cons c tail => exact .inr ⟨c, tail, rfl, known c (ends c rfl)⟩

theorem number?_digits {c : Char} {ds : List Char} (digits : ∀ d ∈ c :: ds, d.isDigit = true)
    (shape : c = '0' → ds = []) (ends : EndsAt stops rest) :
    number? (c :: ds ++ rest) = some (.int (Nat.ofDigitChars 10 (c :: ds) 0), rest) ∧
      number? ('-' :: (c :: ds ++ rest)) = some (.int (-Nat.ofDigitChars 10 (c :: ds) 0), rest) := by
  have sign : c ≠ '-' := by
    rintro rfl
    cases digits _ List.mem_cons_self
  have cut := digitsOf_append digits (isDigit_of_endsAt ends)
  have number := natOfDigits_filterMap digits
  by_cases zero : c = '0'
  · obtain rfl := shape zero
    subst zero
    obtain rfl | ⟨e, tail, rfl, point, small, large⟩ := cases_of_endsAt ends
    · exact ⟨rfl, rfl⟩
    · simp [number?, natOf_eq, number, point, small, large]
  · obtain rfl | ⟨e, tail, rfl, point, small, large⟩ := cases_of_endsAt ends
    · rw [List.append_nil] at cut ⊢
      simp [number?, sign, zero, cut, natOf_eq, number]
    · rw [List.cons_append] at cut ⊢
      simp [number?, sign, zero, cut, natOf_eq, number, point, small, large]

theorem name?_number {c : Char} (h : c.isDigit = true) (ds : List Char) :
    name? (c :: ds) = none ∧ name? ('-' :: c :: ds) = none := by
  have differ : ∀ d ∈ ['n', 't', 'f', 'N', 'I', '-'], d ≠ c := by
    have none : ∀ d ∈ ['n', 't', 'f', 'N', 'I', '-'], d.isDigit = false := by simp
    rintro d known rfl
    rw [none d known] at h
    cases h
  simp only [List.forall_mem_cons, ne_eq] at differ
  simp [name?, differ]

theorem value_number {c : Char} {d : Datum} {tail : List Char} (fuel : Nat)
    (first : c.isDigit = true ∨ c = '-') (name : name? (c :: tail) = none)
    (number : number? (c :: tail) = some (d, rest)) :
    value (fuel + 1) (c :: tail) = .ok (d, rest) := by
  have differ : ∀ e ∈ ['"', '[', '\x7b'], c ≠ e := by
    have none : ∀ e ∈ ['"', '[', '\x7b'], e.isDigit = false ∧ e ≠ '-' := by simp
    rintro e known rfl
    obtain ⟨digit, sign⟩ := none c known
    exact first.elim (fun h => Bool.false_ne_true (digit.symm.trans h)) sign
  simp only [List.forall_mem_cons] at differ
  rw [value, name, number]
  · exact fun _ same => differ.1 (List.cons.inj same).1
  · exact fun _ same => differ.2.1 (List.cons.inj same).1
  · exact fun _ same => differ.2.2.1 (List.cons.inj same).1

theorem isPrintable_of_isDigit {c : Char} (h : c.isDigit = true) : IsPrintable c := by
  have range : '0'.val ≤ c.val ∧ c.val ≤ '9'.val := by simpa [Char.isDigit] using h
  rw [UInt32.le_iff_toNat_le, UInt32.le_iff_toNat_le] at range
  exact ⟨Nat.le_trans (by decide) range.1, Nat.lt_of_le_of_lt range.2 (by decide)⟩

theorem opens_number {c : Char} (h : c.isDigit = true ∨ c = '-') : isSpace c = false ∧ c ≠ ']' := by
  obtain digit | rfl := h
  · have none : ∀ e ∈ [' ', '\t', '\n', '\r', ']'], e.isDigit = false := by simp
    have differ : ∀ e ∈ [' ', '\t', '\n', '\r', ']'], c ≠ e := by
      rintro e known rfl
      exact Bool.false_ne_true ((none c known).symm.trans digit)
    simp only [List.forall_mem_cons] at differ
    simp [isSpace, differ]
  · decide

theorem spells_int (i : Int) : Spells (.int i) (toString i).toList := by
  obtain ⟨c, ds, shape, digits, alone⟩ := exists_digits i.natAbs
  have number : Nat.ofDigitChars 10 (c :: ds) 0 = i.natAbs := by
    rw [← shape, Nat.ofDigitChars_toDigits (by decide) (by decide)]
  have first := digits c List.mem_cons_self
  have printable : ∀ d ∈ c :: ds, IsPrintable d := fun d hd => isPrintable_of_isDigit (digits d hd)
  rw [Int.toString_eq_repr, Int.repr_eq_if]
  split_ifs with sign
  · have text : i.toNat.repr.toList = c :: ds := by
      rw [Nat.toList_repr, ← shape, show i.toNat = i.natAbs by omega]
    have value : (i.natAbs : Int) = i := Int.natAbs_of_nonneg sign
    rw [text]
    refine ⟨printable, ⟨c, ds, rfl, opens_number (.inl first)⟩, fun {fuel rest} enough ends => ?_⟩
    obtain ⟨fuel, rfl⟩ := Nat.exists_eq_succ_of_ne_zero (Nat.ne_zero_of_lt enough)
    have read := (number?_digits digits alone ends).1
    rw [number, value] at read
    exact value_number fuel (.inl first) (name?_number first _).1 read
  · have text : ("-" ++ (-i).toNat.repr).toList = '-' :: c :: ds := by
      rw [String.toList_append, Nat.toList_repr, ← shape, show (-i).toNat = i.natAbs by omega]
      rfl
    have value : -(i.natAbs : Int) = i := by omega
    rw [text]
    refine ⟨?_, ⟨'-', _, rfl, opens_number (.inr rfl)⟩, fun {fuel rest} enough ends => ?_⟩
    · exact List.forall_mem_cons.2 ⟨by decide, printable⟩
    · obtain ⟨fuel, rfl⟩ := Nat.exists_eq_succ_of_ne_zero (Nat.ne_zero_of_lt enough)
      have read := (number?_digits digits alone ends).2
      rw [number, value] at read
      exact value_number fuel (.inr rfl) (name?_number first _).2 read

end numbers

section leaves

theorem spells_null : Spells .null "null".toList :=
  ⟨isPrintable_of_all (by decide), ⟨'n', _, rfl, by decide⟩, fun {fuel rest} enough _ => by
    obtain ⟨fuel, rfl⟩ := Nat.exists_eq_succ_of_ne_zero (Nat.ne_zero_of_lt enough)
    rfl⟩

theorem spells_bool (b : Bool) : Spells (.bool b) (if b then "true" else "false").toList := by
  cases b <;> refine ⟨isPrintable_of_all (by decide), ⟨_, _, rfl, by decide⟩,
    fun {fuel rest} enough _ => ?_⟩ <;>
    obtain ⟨fuel, rfl⟩ := Nat.exists_eq_succ_of_ne_zero (Nat.ne_zero_of_lt enough) <;> rfl

theorem toList_quote (s : String) : (quote s).toList = '"' :: (s.toList.flatMap escapeChar ++ ['"']) := by
  rw [quote, String.toList_ofList, List.cons_append]

theorem isPrintable_quote {s : String} {c : Char} (h : c ∈ (quote s).toList) : IsPrintable c := by
  have mark : IsPrintable '"' := by decide
  rw [toList_quote, List.mem_cons, List.mem_append, List.mem_flatMap, List.mem_singleton] at h
  obtain rfl | ⟨d, -, within⟩ | rfl := h
  · exact mark
  · exact isPrintable_escapeChar within
  · exact mark

theorem stringBody_quote (s : String) (rest : List Char) :
    ∃ tail, (quote s).toList ++ rest = '"' :: tail ∧
      ∀ start, stringBody start tail.length.succ tail = .ok (s.toList, rest) := by
  have long (cs : List Char) : cs.length ≤ (cs.flatMap escapeChar).length := by
    induction cs with
    | nil => exact Nat.le_refl 0
    | cons c cs ih =>
      have one := List.length_pos_of_ne_nil (escapeChar_ne_nil c)
      rw [List.flatMap_cons, List.length_append, List.length_cons]
      omega
  refine ⟨s.toList.flatMap escapeChar ++ '"' :: rest, ?_, fun start => ?_⟩
  · rw [toList_quote, List.cons_append, List.append_assoc, List.singleton_append]
  · refine stringBody_escaped _ ?_
    have enough := long s.toList
    rw [List.length_append]
    omega

theorem spells_text (s : String) : Spells (.text s) (quote s).toList := by
  refine ⟨fun c => isPrintable_quote, ⟨'"', _, toList_quote s, by decide⟩, fun {fuel rest} enough _ => ?_⟩
  obtain ⟨fuel, rfl⟩ := Nat.exists_eq_succ_of_ne_zero
    (Nat.ne_zero_of_lt (Nat.lt_of_lt_of_le (by rw [toList_quote]; exact Nat.succ_pos _) enough))
  obtain ⟨tail, shape, read⟩ := stringBody_quote s rest
  rw [shape, value, read]
  simp only [bind, Except.bind, pure, Except.pure, String.ofList_toList]

end leaves

section joined

def gap : List Char := [',', ' ']

variable {rest : List Char} {fuel : Nat}

theorem mem_joined {c : Char} {ts : List (List Char)} (h : c ∈ gap.intercalate ts) :
    c ∈ gap ∨ ∃ t ∈ ts, c ∈ t := by
  induction ts with
  | nil => cases h
  | cons t ts ih =>
    cases ts with
    | nil => exact .inr ⟨t, List.mem_cons_self, by simpa using h⟩
    | cons u us =>
      rw [List.intercalate_cons_cons, List.mem_append, List.mem_append] at h
      obtain (within | within) | later := h
      · exact .inr ⟨t, List.mem_cons_self, within⟩
      · exact .inl within
      · refine (ih later).imp id ?_
        rintro ⟨v, known, within⟩
        exact ⟨v, List.mem_cons_of_mem t known, within⟩

theorem isPrintable_joined {ts : List (List Char)} (each : ∀ t ∈ ts, ∀ c ∈ t, IsPrintable c) :
    ∀ c ∈ gap.intercalate ts, IsPrintable c := by
  have between : ∀ c ∈ gap, IsPrintable c := isPrintable_of_all (by decide)
  intro c hc
  obtain within | ⟨t, known, within⟩ := mem_joined hc
  · exact between c within
  · exact each t known c within

theorem isPrintable_bracketed {α : Type} {kind : α → List Char → Prop} {first last : Char}
    {as : List α} {ts : List (List Char)} (h : List.Forall₂ kind as ts)
    (each : ∀ a t, kind a t → ∀ c ∈ t, IsPrintable c) (hf : IsPrintable first)
    (hl : IsPrintable last) :
    ∀ c ∈ first :: (gap.intercalate ts ++ [last]), IsPrintable c := by
  have each : ∀ t ∈ ts, ∀ c ∈ t, IsPrintable c := by
    induction h with
    | nil => exact fun t known => absurd known List.not_mem_nil
    | cons first _ ih => exact List.forall_mem_cons.2 ⟨each _ _ first, ih⟩
  intro c hc
  rw [List.mem_cons, List.mem_append, List.mem_singleton] at hc
  obtain rfl | within | rfl := hc
  · exact hf
  · exact isPrintable_joined each c within
  · exact hl

theorem skip_joined {t : List Char} (opens : ∀ later, skip (t ++ later) = t ++ later)
    (ts : List (List Char)) (rest : List Char) :
    skip (gap.intercalate (t :: ts) ++ rest) = gap.intercalate (t :: ts) ++ rest := by
  obtain ⟨later, front, -⟩ := Text.intercalate_cons_append gap t rest ts
  rw [front]
  exact opens later

theorem endsAt_gap (rest : List Char) : EndsAt stops (gap ++ rest) := endsAt_cons (by decide) _

theorem skip_gap (rest : List Char) : skip (gap ++ rest) = ',' :: ' ' :: rest := rfl

theorem skip_space (rest : List Char) : skip (' ' :: rest) = skip rest := rfl

theorem values_joined {d : Datum} {ds : List Datum} {t : List Char} {ts : List (List Char)}
    (first : Spells d t) (others : List.Forall₂ Spells ds ts) (fuel : Nat) (rest : List Char)
    (enough : (gap.intercalate (t :: ts)).length < fuel) :
    values fuel (gap.intercalate (t :: ts) ++ ']' :: rest) = .ok (d :: ds, rest) := by
  obtain ⟨fuel, rfl⟩ := Nat.exists_eq_succ_of_ne_zero (Nat.ne_zero_of_lt enough)
  induction others generalizing d t fuel with
  | nil =>
    rw [List.intercalate_singleton] at enough ⊢
    rw [values, first.reads (Nat.le_of_lt_succ enough) (endsAt_cons (by decide) _)]
    rfl
  | @cons e u es us second others ih =>
    rw [List.intercalate_cons_cons] at enough ⊢
    simp only [List.length_append] at enough
    have size : gap.length = 2 := rfl
    obtain ⟨fuel, rfl⟩ := Nat.exists_eq_succ_of_ne_zero (n := fuel) (by omega)
    have later := ih second fuel (by omega)
    rw [values, List.append_assoc, List.append_assoc, first.reads (by omega) (endsAt_gap _)]
    simp only [bind, Except.bind, skip_gap]
    rw [skip_space, skip_joined second.skip _ _, later]
    rfl

def entryText (name : String) (t : List Char) : List Char := (quote name).toList ++ (':' :: ' ' :: t)

theorem length_entryText (name : String) (t : List Char) : t.length < (entryText name t).length := by
  simp only [entryText, List.length_append, List.length_cons]
  omega

theorem skip_entryText (name : String) (t later : List Char) :
    skip (entryText name t ++ later) = entryText name t ++ later := by
  rw [entryText, toList_quote]
  exact skip_cons rfl _

theorem members_joined (name : String) {d : Datum} {fields : List (String × Datum)} {t : List Char}
    {ts : List (List Char)} (first : Spells d t)
    (others : List.Forall₂ (fun f u => ∃ v, Spells f.2 v ∧ u = entryText f.1 v) fields ts)
    (fuel : Nat) (rest : List Char) (enough : (gap.intercalate (entryText name t :: ts)).length < fuel) :
    members fuel (gap.intercalate (entryText name t :: ts) ++ '\x7d' :: rest) =
      .ok (((name, d) :: fields).map fun (k, d) => (.text k, d), rest) := by
  obtain ⟨fuel, rfl⟩ := Nat.exists_eq_succ_of_ne_zero (Nat.ne_zero_of_lt enough)
  have size := length_entryText name t
  induction others generalizing name d t fuel with
  | nil =>
    rw [List.intercalate_singleton] at enough ⊢
    obtain ⟨tail, shape, read⟩ := stringBody_quote name (':' :: ' ' :: t ++ '\x7d' :: rest)
    rw [entryText, List.append_assoc, shape, members, read]
    simp only [bind, Except.bind, List.cons_append, skip_cons (show isSpace ':' = false from rfl),
      skip_space, first.skip]
    rw [first.reads (by omega) (endsAt_cons (by decide) _)]
    simp only [skip_cons (show isSpace '\x7d' = false from rfl), pure, Except.pure,
      String.ofList_toList, List.map_cons, List.map_nil]
  | @cons f u fs us second others ih =>
    obtain ⟨v, second, rfl⟩ := second
    rw [List.intercalate_cons_cons] at enough ⊢
    simp only [List.length_append] at enough
    have space : gap.length = 2 := rfl
    obtain ⟨fuel, rfl⟩ := Nat.exists_eq_succ_of_ne_zero (n := fuel) (by omega)
    have later := ih f.1 second fuel (by omega) (length_entryText f.1 v)
    obtain ⟨tail, shape, read⟩ := stringBody_quote name (':' :: ' ' :: t ++ (gap ++
      (gap.intercalate (entryText f.1 v :: us) ++ '\x7d' :: rest)))
    rw [List.append_assoc, List.append_assoc, entryText, List.append_assoc, shape, members, read]
    simp only [bind, Except.bind, List.cons_append, skip_cons (show isSpace ':' = false from rfl),
      skip_space, first.skip]
    rw [first.reads (by omega) (endsAt_gap _)]
    simp only [skip_gap, skip_space]
    rw [skip_joined (skip_entryText f.1 v) _ _, later]
    simp only [pure, Except.pure, String.ofList_toList, List.map_cons]

end joined

section written

variable {fallback : Fallback}

theorem spells_list {ds : List Datum} {ts : List (List Char)} (h : List.Forall₂ Spells ds ts) :
    Spells (.list ds) ('[' :: (gap.intercalate ts ++ [']'])) := by
  refine ⟨isPrintable_bracketed h (fun _ _ spelled => spelled.printable) (by decide) (by decide),
    ⟨'[', _, rfl, by decide⟩, fun {fuel rest} enough _ => ?_⟩
  · obtain ⟨fuel, rfl⟩ := Nat.exists_eq_succ_of_ne_zero (Nat.ne_zero_of_lt enough)
    rw [List.cons_append, List.append_assoc, List.singleton_append]
    simp only [List.length_cons, List.length_append, List.length_nil] at enough
    cases h with
    | nil => rfl
    | @cons d t ds ts first others =>
      obtain ⟨c, tail, shape, -, differ⟩ := first.opens
      obtain ⟨later, front, -⟩ := Text.intercalate_cons_append gap t (']' :: rest) ts
      have read := values_joined first others fuel rest (by omega)
      have opened := skip_joined first.skip ts (']' :: rest)
      rw [front, shape, List.cons_append] at read opened
      rw [front, shape, List.cons_append, value]
      simp [opened, differ, read, bind, Except.bind, pure, Except.pure]

theorem spells_table {fields : List (String × Datum)} {ts : List (List Char)}
    (distinct : (fields.map Prod.fst).Nodup)
    (h : List.Forall₂ (fun f u => ∃ v, Spells f.2 v ∧ u = entryText f.1 v) fields ts) :
    Spells (.ofFields fields) ('\x7b' :: (gap.intercalate ts ++ ['\x7d'])) := by
  refine ⟨isPrintable_bracketed h ?_ (by decide) (by decide), ⟨'\x7b', _, rfl, by decide⟩,
    fun {fuel rest} enough _ => ?_⟩
  · rintro f t ⟨v, spelled, rfl⟩ c hc
    simp only [entryText, List.mem_append, List.mem_cons] at hc
    obtain within | rfl | rfl | within := hc
    · exact isPrintable_quote within
    · decide
    · decide
    · exact spelled.printable c within
  · obtain ⟨fuel, rfl⟩ := Nat.exists_eq_succ_of_ne_zero (Nat.ne_zero_of_lt enough)
    rw [List.cons_append, List.append_assoc, List.singleton_append]
    simp only [List.length_cons, List.length_append, List.length_nil] at enough
    cases h with
    | nil => rfl
    | @cons f u fields ts first others =>
      obtain ⟨v, first, rfl⟩ := first
      have read := members_joined f.1 first others fuel rest (by omega)
      have opened := skip_joined (skip_entryText f.1 v) ts ('\x7d' :: rest)
      obtain ⟨later, front, -⟩ :=
        Text.intercalate_cons_append gap (entryText f.1 v) ('\x7d' :: rest) ts
      rw [front, entryText, toList_quote, List.cons_append, List.cons_append] at read opened
      rw [front, entryText, toList_quote, List.cons_append, List.cons_append, value, opened]
      change (members fuel _ >>= fun p => pure (Datum.tableOf p.1, p.2)) = _
      rw [read]
      exact congrArg (fun d => Except.ok (d, rest)) (Datum.tableOf_fields distinct)

theorem writeItems_eq_ok {ds : List Datum}
    (each : ∀ d ∈ ds, ∃ t, write fallback d = .ok t ∧ Spells d t.toList) :
    ∃ ts, writeItems fallback ds = .ok ts ∧ List.Forall₂ Spells ds (ts.map String.toList) := by
  induction ds with
  | nil => exact ⟨[], rfl, .nil⟩
  | cons d ds ih =>
    rw [List.forall_mem_cons] at each
    obtain ⟨⟨t, first, spelled⟩, later⟩ := each
    obtain ⟨ts, others, rest⟩ := ih later
    refine ⟨t :: ts, ?_, .cons spelled rest⟩
    rw [writeItems, first, others]
    rfl

theorem writeEntries_eq_ok {fields : List (String × Datum)}
    (each : ∀ f ∈ fields, ∃ t, write fallback f.2 = .ok t ∧ Spells f.2 t.toList) :
    ∃ ts, writeEntries fallback (fields.map fun (k, d) => (.text k, d)) = .ok ts ∧
      List.Forall₂ (fun f u => ∃ v, Spells f.2 v ∧ u = entryText f.1 v) fields
        (ts.map String.toList) := by
  induction fields with
  | nil => exact ⟨[], rfl, .nil⟩
  | cons f fields ih =>
    rw [List.forall_mem_cons] at each
    obtain ⟨⟨t, first, spelled⟩, later⟩ := each
    obtain ⟨ts, others, rest⟩ := ih later
    refine ⟨(quote f.1 ++ ": " ++ t) :: ts, ?_, .cons ⟨t.toList, spelled, ?_⟩ rest⟩
    · rw [List.map_cons, writeEntries, first, others]
      rfl
    · rw [String.toList_append, String.toList_append, List.append_assoc]
      rfl

theorem exists_spelling {d : Datum} (h : d.Portable) (fallback : Fallback) :
    ∃ t, write fallback d = .ok t ∧ Spells d t.toList := by
  induction h with
  | null => exact ⟨_, rfl, spells_null⟩
  | bool b => exact ⟨_, rfl, spells_bool b⟩
  | int i => exact ⟨_, rfl, spells_int i⟩
  | text s => exact ⟨_, rfl, spells_text s⟩
  | list _ ih =>
    obtain ⟨ts, written, spelled⟩ := writeItems_eq_ok ih
    refine ⟨"[" ++ ", ".intercalate ts ++ "]", ?_, ?_⟩
    · rw [write, written]
      rfl
    · rw [String.toList_append, String.toList_append, String.toList_intercalate]
      exact spells_list spelled
  | table distinct _ ih =>
    obtain ⟨ts, written, spelled⟩ := writeEntries_eq_ok ih
    refine ⟨"\x7b" ++ ", ".intercalate ts ++ "\x7d", ?_, ?_⟩
    · rw [Datum.ofFields, write, written]
      rfl
    · rw [String.toList_append, String.toList_append, String.toList_intercalate]
      exact spells_table distinct spelled

theorem read_write {d : Datum} (h : d.Portable) (fallback : Fallback) :
    ∃ t, write fallback d = .ok t ∧ (∀ c ∈ t.toList, IsPrintable c) ∧ read t = .ok d := by
  obtain ⟨t, written, spelled⟩ := exists_spelling h fallback
  refine ⟨t, written, spelled.printable, ?_⟩
  have opened := spelled.skip []
  have found := spelled.reads (Nat.le_succ _) (Text.endsAt_nil stops)
  rw [List.append_nil] at opened found
  unfold read
  dsimp only
  rw [opened, found]
  rfl

end written

end Json

end Stencil
