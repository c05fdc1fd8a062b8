import Stencil.Datum.Access
import Stencil.Metric
import Stencil.Proofs.Number.Integer

/-!
What a summary tells of what it has gathered. A value is accepted if it is a number that becomes a double,
and nothing else is (`exists_observe_iff`). Of integers a summary keeps the number, the least and the greatest
one as they are, and the sum of the doubles that they become, as long as the sums on the way stay below the
limit (`Gathers.tells`). The mean of that sum lies between the least and the greatest (`le_mean`, `mean_le`).
-/

namespace Stencil

open Number (limit Becomes Holds Keeps)

namespace Datum

def Addable (d : Datum) : Prop := ∃ x y, d.number? = some x ∧ x.toFloat = .ok y

def AtMost (a b : Datum) : Prop :=
  ∃ x y order, a.number? = some x ∧ b.number? = some y ∧ x.compare? y = some order ∧ order ≠ .gt

variable {d : Datum} {i : Int} {x : Float} {q : ℚ}

theorem sum_numbers (operation : String) {a b : Datum} {x y : Number} (h : a.number? = some x)
    (h' : b.number? = some y) :
    a.sum operation b = ((x.add y).map ofNumber).mapError MetricError.arithmetic := by
  unfold sum
  rw [h, h']

theorem less_numbers (operation : String) {a b : Datum} {x y : Number} (h : a.number? = some x)
    (h' : b.number? = some y) : a.less operation b = .ok (x.lt y) := by
  unfold less
  rw [h, h']

theorem sum_float (x : Float) {n : Number} (h : d.number? = some n) :
    (float x).sum "+" d = (n.toFloat.map fun y => float (x + y)).mapError MetricError.arithmetic := by
  have added : Number.add (.float x) n = n.toFloat.map fun y => .float (x + y) := by
    change (do
      let u ← Number.toFloat (.float x)
      let v ← n.toFloat
      (Except.ok (Number.float (u + v)) : Number.Result Number)) = _
    cases n.toFloat <;> rfl
  rw [sum_numbers "+" rfl h, added]
  cases n.toFloat <;> rfl

theorem sum_float_none (x : Float) (h : d.number? = none) :
    (float x).sum "+" d = .error (.operands "+" "float" d.kind) := by
  unfold sum
  rw [h]
  rfl

theorem number?_of_int? (h : d.int? = some i) : d.number? = some (.int i) := by
  cases d <;> simp_all [int?, number?]

theorem same_int (h : d.int? = some i) : d.same (.int i) = true := by
  have self : Number.eq (.int i) (.int i) = true := by
    rw [Number.eq, Number.compare?, compare_eq_iff_eq.2 rfl]
    rfl
  cases d <;> simp_all [int?, same, number?]

theorem same_float (h : Holds x i) : (float x).same (.int i) = true := (h.eq_iff i).2 rfl

theorem atMost_float (h : d.int? = some i) (holds : Holds x q) (le : (i : ℚ) ≤ q) :
    d.AtMost (.float x) := by
  refine ⟨.int i, .float x, (compare q i).swap, number?_of_int? h, rfl, ?_, ?_⟩
  · rw [Number.compare?, holds.compareReading]
    rfl
  · rw [Ne, Ordering.swap_eq_gt, compare_lt_iff_lt]
    exact not_lt_of_ge le

theorem float_atMost (h : d.int? = some i) (holds : Holds x q) (le : q ≤ i) : (float x).AtMost d := by
  refine ⟨.float x, .int i, compare q i, rfl, number?_of_int? h, ?_, ?_⟩
  · rw [Number.compare?, holds.compareReading]
  · rw [Ne, compare_gt_iff_gt]
    exact not_lt_of_ge le

end Datum

namespace Summary

inductive Gathers : List Datum → Summary → Prop
  | none : Gathers [] empty
  | more {ds : List Datum} {s s' : Summary} {d : Datum} :
      Gathers ds s → s.observe d = .ok s' → Gathers (ds ++ [d]) s'

structure Numeric (s : Summary) : Prop where
  total : ∃ t, s.total = .float t
  least : ∃ a, s.least.number? = some a
  greatest : ∃ b, s.greatest.number? = some b

variable {s s' : Summary} {d : Datum} {ds : List Datum} {x a b : Number} {t y : Float}

theorem observe_eq (total : s.total = .float t) (least : s.least.number? = some a)
    (greatest : s.greatest.number? = some b) (number : d.number? = some x) (double : x.toFloat = .ok y) :
    s.observe d = .ok ⟨s.count + 1, .float (t + y), if x.lt a then d else s.least,
      if b.lt x then d else s.greatest⟩ := by
  have sum : s.total.sum "+" d = .ok (.float (t + y)) := by
    rw [total, Datum.sum_float t number, double]
    rfl
  rw [observe, sum, Datum.less_numbers "<" number least, Datum.less_numbers ">" greatest number]
  rfl

theorem exists_observe_iff (h : s.Numeric) : (∃ s', s.observe d = .ok s') ↔ d.Addable := by
  obtain ⟨⟨t, total⟩, ⟨a, least⟩, ⟨b, greatest⟩⟩ := h
  constructor
  · rintro ⟨s', accepted⟩
    rw [observe, total] at accepted
    cases number : d.number? with
    | none =>
      rw [Datum.sum_float_none t number] at accepted
      cases accepted
    | some x =>
      cases double : x.toFloat with
      | error e =>
        rw [Datum.sum_float t number, double] at accepted
        cases accepted
      | ok y => exact ⟨x, y, number, double⟩
  · rintro ⟨x, y, number, double⟩
    exact ⟨_, observe_eq total least greatest number double⟩

theorem numeric_empty : empty.Numeric := ⟨⟨_, rfl⟩, ⟨_, rfl⟩, ⟨_, rfl⟩⟩

theorem Numeric.observe (h : s.Numeric) (accepted : s.observe d = .ok s') : s'.Numeric := by
  obtain ⟨x, y, number, double⟩ := (exists_observe_iff h).1 ⟨s', accepted⟩
  obtain ⟨⟨t, total⟩, ⟨a, least⟩, ⟨b, greatest⟩⟩ := h
  rw [observe_eq total least greatest number double] at accepted
  cases accepted
  refine ⟨⟨_, rfl⟩, ?_, ?_⟩
  · cases x.lt a
    · exact ⟨a, least⟩
    · exact ⟨x, number⟩
  · cases b.lt x
    · exact ⟨b, greatest⟩
    · exact ⟨x, number⟩

theorem Gathers.numeric (h : Gathers ds s) : s.Numeric := by
  induction h with
  | none => exact numeric_empty
  | more _ accepted ih => exact ih.observe accepted

theorem Gathers.eq_empty (h : Gathers [] s) : s = empty := by
  generalize none : ([] : List Datum) = ds at h
  cases h with
  | none => rfl
  | more => simp at none

theorem Gathers.addable (h : Gathers ds s) : ∀ d ∈ ds, d.Addable := by
  induction h with
  | none => simp
  | more gathered accepted ih =>
    rw [List.forall_mem_append, List.forall_mem_singleton]
    exact ⟨ih, (exists_observe_iff gathered.numeric).1 ⟨_, accepted⟩⟩

section whole

def Bounded (values : List Int) : Prop := ∀ p ∈ values.inits, p.sum.natAbs < limit

instance (values : List Int) : Decidable (Bounded values) :=
  inferInstanceAs (Decidable (∀ p ∈ values.inits, p.sum.natAbs < limit))

/-- A datum is kept as the first of the values in some order, or still stands for none. -/
def Kept (r : Int → Int → Prop) (sentinel kept : Datum) (values : List Int) : Prop :=
  (values = [] ∧ kept = sentinel) ∨ ∃ k ∈ values, (∀ v ∈ values, r k v) ∧ kept.int? = some k

/-- What a summary tells of the values that it has gathered and the doubles that they become. -/
structure Tells (s : Summary) (values doubles : List Int) : Prop where
  count : s.count = values.length
  total : ∃ t, s.total = .float t ∧ (Bounded doubles → Holds t doubles.sum)
  least : Kept (· ≤ ·) empty.least s.least values
  greatest : Kept (· ≥ ·) empty.greatest s.greatest values

variable {values doubles : List Int} {v w : Int}

theorem bounded_concat (h : Bounded (doubles ++ [w])) :
    Bounded doubles ∧ (doubles.sum + w).natAbs < limit := by
  refine ⟨fun p hp => h p ?_, ?_⟩
  · rw [List.mem_inits] at hp ⊢
    exact hp.trans (List.prefix_append _ _)
  · have all := h _ ((List.mem_inits _ _).2 (List.prefix_refl _))
    rwa [List.sum_append, List.sum_singleton] at all

theorem Kept.next {r : Int → Int → Prop} [Std.Total r] [IsTrans Int r] {sentinel kept : Datum}
    {beyond : Bool} (h : Kept r sentinel kept values) (value : d.int? = some v)
    (first : kept = sentinel → beyond = true)
    (later : ∀ k, kept.int? = some k → (beyond = true ↔ ¬r k v)) :
    Kept r sentinel (if beyond then d else kept) (values ++ [v]) := by
  have self : r v v := (Std.Total.total v v).elim id id
  obtain ⟨rfl, start⟩ | ⟨k, known, before, shown⟩ := h
  · rw [if_pos (first start)]
    exact .inr ⟨v, by simp, by simpa using self, value⟩
  · by_cases change : r k v
    · have stays : ¬beyond = true := fun h => (later k shown).1 h change
      rw [if_neg stays]
      refine .inr ⟨k, by simp [known], fun u hu => ?_, shown⟩
      obtain old | rfl := by simpa using hu
      · exact before u old
      · exact change
    · rw [if_pos ((later k shown).2 change)]
      have lower : r v k := (Std.Total.total v k).resolve_right change
      refine .inr ⟨v, by simp, fun u hu => ?_, value⟩
      obtain old | rfl := by simpa using hu
      · exact IsTrans.trans v k u lower (before u old)
      · exact self

theorem int_lt_infinity (v : Int) : Number.lt (.int v) (.float (1.0 / 0.0)) = true := by
  have read : Decimal.Reading.ofFloat (1.0 / 0.0) = .infinite false := rfl
  rw [Number.lt, Number.compare?, read]
  rfl

theorem infinity_lt_int (v : Int) : Number.lt (.float (-1.0 / 0.0)) (.int v) = true := by
  have read : Decimal.Reading.ofFloat (-1.0 / 0.0) = .infinite true := rfl
  rw [Number.lt, Number.compare?, read]
  rfl

theorem int_lt_int (v k : Int) : Number.lt (.int v) (.int k) = true ↔ v < k := by
  rw [Number.lt, Number.compare?, beq_iff_eq, Option.some.injEq, compare_lt_iff_lt]

theorem tells_empty : Tells empty [] [] where
  count := rfl
  total := ⟨0.0, rfl, fun _ => rfl⟩
  least := .inl ⟨rfl, rfl⟩
  greatest := .inl ⟨rfl, rfl⟩

theorem Tells.observe (h : Tells s values doubles) (numeric : s.Numeric) (value : d.int? = some v)
    (becomes : Becomes v w) (accepted : s.observe d = .ok s') : Tells s' (values ++ [v]) (doubles ++ [w]) := by
  obtain ⟨y, double, holds, -⟩ := becomes.holds
  obtain ⟨t, total, sum⟩ := h.total
  obtain ⟨a, least⟩ := numeric.least
  obtain ⟨b, greatest⟩ := numeric.greatest
  rw [observe_eq total least greatest (Datum.number?_of_int? value) double] at accepted
  cases accepted
  refine ⟨?_, ⟨t + y, rfl, fun bounded => ?_⟩, h.least.next value ?_ ?_, h.greatest.next value ?_ ?_⟩
  · rw [h.count, List.length_append, List.length_singleton]
  · obtain ⟨before, small⟩ := bounded_concat bounded
    have bound : |doubles.sum + w| ≤ limit := by
      rw [Int.abs_eq_natAbs]
      exact_mod_cast small.le
    rw [List.sum_append, List.sum_singleton]
    exact (sum before).add_whole holds bound
  · intro start
    rw [start] at least
    cases least
    exact int_lt_infinity v
  · intro k known
    rw [Datum.number?_of_int? known] at least
    cases least
    rw [int_lt_int, not_le]
  · intro start
    rw [start] at greatest
    cases greatest
    exact infinity_lt_int v
  · intro k known
    rw [Datum.number?_of_int? known] at greatest
    cases greatest
    rw [int_lt_int, ge_iff_le, not_le]

theorem exists_doubles (whole : List.Forall₂ (fun d v => d.int? = some v) ds values)
    (addable : ∀ d ∈ ds, d.Addable) : ∃ doubles, List.Forall₂ Becomes values doubles := by
  induction whole with
  | nil => exact ⟨[], .nil⟩
  | cons value _ ih =>
    rw [List.forall_mem_cons] at addable
    obtain ⟨x, y, number, double⟩ := addable.1
    rw [Datum.number?_of_int? value] at number
    cases number
    obtain ⟨w, becomes⟩ := Number.exists_becomes double
    obtain ⟨ws, rest⟩ := ih addable.2
    exact ⟨w :: ws, .cons becomes rest⟩

theorem Tells.exists_min (h : Tells s values doubles) (filled : values ≠ []) :
    ∃ lo ∈ values, (∀ v ∈ values, lo ≤ v) ∧ s.min.int? = some lo := by
  have shown : s.min = s.least :=
    if_neg fun none => filled (List.length_eq_zero_iff.1 (h.count.symm.trans none))
  rw [shown]
  exact h.least.resolve_left fun none => filled none.1

theorem Tells.exists_max (h : Tells s values doubles) (filled : values ≠ []) :
    ∃ hi ∈ values, (∀ v ∈ values, v ≤ hi) ∧ s.max.int? = some hi := by
  have shown : s.max = s.greatest :=
    if_neg fun none => filled (List.length_eq_zero_iff.1 (h.count.symm.trans none))
  rw [shown]
  exact h.greatest.resolve_left fun none => filled none.1

theorem exists_concat_of_forall₂ {α β : Type} {r : α → β → Prop} {as : List α} {a : α}
    {bs : List β} (h : List.Forall₂ r (as ++ [a]) bs) :
    ∃ bs' b, bs = bs' ++ [b] ∧ List.Forall₂ r as bs' ∧ r a b := by
  have reversed := List.forall₂_reverse_iff.2 h
  rw [List.reverse_append, List.reverse_singleton, List.singleton_append,
    List.forall₂_cons_left_iff] at reversed
  obtain ⟨b, rest, last, others, same⟩ := reversed
  refine ⟨rest.reverse, b, ?_, ?_, last⟩
  · rw [← List.reverse_reverse bs, same, List.reverse_cons]
  · rw [← List.reverse_reverse as]
    exact List.forall₂_reverse_iff.2 others

theorem Gathers.tells (h : Gathers ds s) (whole : List.Forall₂ (fun d v => d.int? = some v) ds values)
    (become : List.Forall₂ Becomes values doubles) : Tells s values doubles := by
  induction h generalizing values doubles with
  | none =>
    cases whole
    cases become
    exact tells_empty
  | more gathered accepted ih =>
    obtain ⟨vs, v, rfl, whole, value⟩ := exists_concat_of_forall₂ whole
    obtain ⟨ws, w, rfl, become, becomes⟩ := exists_concat_of_forall₂ become
    exact (ih whole become).observe gathered.numeric value becomes accepted

theorem Bounded.sum_lt (h : Bounded doubles) : |doubles.sum| < limit := by
  rw [Int.abs_eq_natAbs]
  exact_mod_cast h _ ((List.mem_inits _ _).2 (List.prefix_refl _))

theorem Bounded.neg (h : Bounded doubles) : Bounded (doubles.map Neg.neg) := by
  intro p hp
  obtain ⟨p', before, rfl⟩ := List.prefix_map_iff.1 ((List.mem_inits _ _).1 hp)
  rw [← List.sum_neg, Int.natAbs_neg]
  exact h p' ((List.mem_inits _ _).2 before)

theorem le_doubles {k : Int} (keeps : List.Forall₂ (fun v w : Int => Keeps v w) values doubles)
    (near : |k| ≤ limit) (least : ∀ v ∈ values, k ≤ v) : ∀ w ∈ doubles, k ≤ w := by
  induction keeps with
  | nil => simp
  | cons first _ ih =>
    have kept := (first k near).1 (by exact_mod_cast least _ List.mem_cons_self)
    rw [List.forall_mem_cons]
    exact ⟨by exact_mod_cast kept, ih fun v hv => least v (List.mem_cons_of_mem _ hv)⟩

theorem le_mean {lo : Int} {q : ℚ} (keeps : List.Forall₂ (fun v w : Int => Keeps v w) values doubles)
    (bounded : Bounded doubles) (some : values ≠ []) (least : ∀ v ∈ values, lo ≤ v)
    (mean : Keeps ((doubles.sum : ℚ) / values.length) q) : (lo : ℚ) ≤ q := by
  have positive : 0 < values.length := List.length_pos_iff.2 some
  have count : (0 : ℚ) < values.length := by exact_mod_cast positive
  obtain far | high := le_or_gt (limit : Int) lo
  · -- the first double would lie beyond the limit
    have beyond := le_doubles keeps (k := limit) (by simp) fun v hv => far.trans (least v hv)
    cases keeps with
    | nil => exact absurd rfl some
    | @cons v w vs ws first rest =>
      have small := bounded [w] ((List.mem_inits _ _).2 (List.prefix_append [w] ws))
      have large := beyond w List.mem_cons_self
      rw [List.sum_singleton] at small
      omega
  obtain low | near := lt_or_ge lo (-(limit : Int))
  · have total := (abs_lt.1 bounded.sum_lt).1
    have one : (1 : ℚ) ≤ values.length := by exact_mod_cast positive
    have below : ((-(limit : Int) : Int) : ℚ) ≤ doubles.sum / values.length := by
      rw [le_div_iff₀ count]
      have scaled : ((-(limit : Int) : Int) : ℚ) * values.length ≤ ((-(limit : Int) : Int) : ℚ) * 1 :=
        mul_le_mul_of_nonpos_left one (by exact_mod_cast (show -(limit : Int) ≤ 0 by omega))
      exact scaled.trans (by rw [mul_one]; exact_mod_cast total.le)
    exact (Int.cast_le.2 low.le).trans ((mean _ (by simp)).1 below)
  · have inside : |lo| ≤ limit := abs_le.2 ⟨near, high.le⟩
    refine (mean lo inside).1 ?_
    rw [le_div_iff₀ count, mul_comm, keeps.length_eq]
    have sum := List.card_nsmul_le_sum doubles lo (le_doubles keeps inside least)
    rw [nsmul_eq_mul] at sum
    exact_mod_cast sum

theorem mean_le {hi : Int} {q : ℚ} (keeps : List.Forall₂ (fun v w : Int => Keeps v w) values doubles)
    (bounded : Bounded doubles) (some : values ≠ []) (greatest : ∀ v ∈ values, v ≤ hi)
    (mean : Keeps ((doubles.sum : ℚ) / values.length) q) : q ≤ hi := by
  have mirrored : List.Forall₂ (fun v w : Int => Keeps v w) (values.map Neg.neg) (doubles.map Neg.neg) := by
    rw [List.forall₂_map_left_iff, List.forall₂_map_right_iff]
    refine keeps.imp fun v w kept => ?_
    rw [Int.cast_neg, Int.cast_neg]
    exact kept.neg
  have least : ∀ v ∈ values.map Neg.neg, -hi ≤ v := by
    intro v hv
    obtain ⟨u, hu, rfl⟩ := List.mem_map.1 hv
    exact neg_le_neg (greatest u hu)
  have above := le_mean mirrored bounded.neg (by simpa using some) least (q := -q) (by
    rw [← List.sum_neg, Int.cast_neg, neg_div, List.length_map]
    exact mean.neg)
  rw [Int.cast_neg] at above
  exact neg_le_neg_iff.1 above

/-- The mean of a total below the limit is a double on the same side of every whole number up to the
limit. -/
theorem mean_keeps {t : Float} {S : Int} (counted : 0 < s.count) (total : s.total = .float t)
    (holds : Holds t S) (bound : |S| < limit) :
    ∃ y q, s.mean = .float y ∧ Holds y q ∧ Keeps ((S : ℚ) / s.count) q := by
  obtain ⟨count, total', least, greatest⟩ := s
  obtain rfl : total' = .float t := total
  obtain ⟨n, rfl⟩ : ∃ n, count = n + 1 := ⟨count - 1, by simp only at counted; omega⟩
  obtain ⟨y, q, quotient, result, keeps⟩ | ⟨⟨e, quotient⟩, keeps⟩ :=
    Number.divide_count holds bound n.succ_pos
  · refine ⟨y, q, ?_, result, keeps⟩
    rw [Nat.cast_succ] at quotient
    simp only [mean, Datum.number?, quotient]
    rfl
  · refine ⟨0.0, 0, ?_, rfl, keeps⟩
    rw [Nat.cast_succ] at quotient
    simp only [mean, Datum.number?, quotient]
    rfl

end whole

end Summary

end Stencil
