import Stencil.Proofs.Metric.Summary

/-!
What a histogram shows of its history. It has gathered the values that it accepted since it was last reset
(`gathered_after`), and a call that is refused changes nothing. So it reports zeros while there are none, the
number and the range of integers, and the sum and a mean of the doubles that these become (`after_shows`).
An integer that is no double is not what is added (`after_misses`).
-/

namespace Stencil

open Number (limit Becomes Holds Keeps)

namespace Metric

def Reports (m : Metric) (part : String) (i : Int) : Prop :=
  ∃ d, m.state.lookup part = some d ∧ d.same (.int i) = true

structure Ranges (m : Metric) (values : List Int) : Prop where
  count : m.Reports "count" values.length
  least : values ≠ [] → ∃ lo ∈ values, (∀ v ∈ values, lo ≤ v) ∧ m.Reports "min" lo
  greatest : values ≠ [] → ∃ hi ∈ values, (∀ v ∈ values, v ≤ hi) ∧ m.Reports "max" hi

structure Averages (m : Metric) (values : List Int) (total : Int) : Prop where
  sum : m.Reports "sum" total
  between : values ≠ [] → ∃ least mean greatest, m.state.lookup "min" = some least ∧
    m.state.lookup "avg" = some mean ∧ m.state.lookup "max" = some greatest ∧
    least.AtMost mean ∧ mean.AtMost greatest

section shown

variable {name description : String} {s : Summary} {values doubles : List Int}

theorem reports_empty (name description : String) :
    ∀ part ∈ ["count", "sum", "avg", "min", "max"], (histogram name description).Reports part 0 := by
  intro part known
  simp only [List.mem_cons, List.not_mem_nil, or_false] at known
  obtain rfl | rfl | rfl | rfl | rfl := known <;> exact ⟨_, rfl, rfl⟩

theorem ranges_of_tells (h : s.Tells values doubles) : Ranges ⟨name, description, .histogram s⟩ values := by
  refine ⟨⟨.int s.count, rfl, ?_⟩, fun filled => ?_, fun filled => ?_⟩
  · rw [h.count]
    exact Datum.same_int rfl
  · obtain ⟨lo, known, least, shown⟩ := h.exists_min filled
    exact ⟨lo, known, least, s.min, rfl, Datum.same_int shown⟩
  · obtain ⟨hi, known, greatest, shown⟩ := h.exists_max filled
    exact ⟨hi, known, greatest, s.max, rfl, Datum.same_int shown⟩

theorem averages_of_tells (h : s.Tells values doubles) (become : List.Forall₂ Becomes values doubles)
    (bounded : Summary.Bounded doubles) :
    Averages ⟨name, description, .histogram s⟩ values doubles.sum := by
  obtain ⟨t, total, sum⟩ := h.total
  have holds := sum bounded
  refine ⟨⟨s.total, rfl, ?_⟩, fun filled => ?_⟩
  · rw [total]
    exact Datum.same_float holds
  · have positive : 0 < s.count := h.count ▸ List.length_pos_iff.2 filled
    have keeps : List.Forall₂ (fun v w : Int => Keeps v w) values doubles :=
      become.imp fun v w becomes => becomes.keeps
    obtain ⟨y, q, mean, result, side⟩ := Summary.mean_keeps positive total holds bounded.sum_lt
    obtain ⟨lo, -, least, low⟩ := h.exists_min filled
    obtain ⟨hi, -, greatest, high⟩ := h.exists_max filled
    rw [h.count] at side
    refine ⟨s.min, s.mean, s.max, rfl, rfl, rfl, ?_, ?_⟩
    · rw [mean]
      exact Datum.atMost_float low result (Summary.le_mean keeps bounded filled least side)
    · rw [mean]
      exact Datum.float_atMost high result (Summary.mean_le keeps bounded filled greatest side)

end shown

inductive Call where
  | observe (value : Datum)
  | reset

structure History where
  metric : Metric
  accepted : List Datum

namespace History

def start (name description : String) : History := ⟨histogram name description, []⟩

def call (h : History) : Call → History
  | .observe d =>
    match h.metric.update .observe (some d) with
    | .ok m => ⟨m, h.accepted ++ [d]⟩
    | .error _ => h
  | .reset => ⟨h.metric.reset, []⟩

def after (h : History) (calls : List Call) : History := calls.foldl call h

def Gathered (h : History) (name description : String) : Prop :=
  ∃ s, h.metric = ⟨name, description, .histogram s⟩ ∧ Summary.Gathers h.accepted s

variable {h : History} {name description : String}

theorem update_observe (s : Summary) (d : Datum) :
    (⟨name, description, .histogram s⟩ : Metric).update .observe (some d) =
      (s.observe d).map fun s' => ⟨name, description, .histogram s'⟩ := by
  change (do return (⟨name, description, .histogram (← s.observe d)⟩ : Metric)) = _
  cases s.observe d <;> rfl

theorem Gathered.call (g : h.Gathered name description) (c : Call) : (h.call c).Gathered name description := by
  obtain ⟨metric, accepted⟩ := h
  obtain ⟨s, rfl, gathered⟩ := g
  cases c with
  | reset => exact ⟨.empty, rfl, .none⟩
  | observe d =>
    rw [History.call]
    simp only [update_observe]
    cases added : s.observe d with
    | error e => exact ⟨s, rfl, gathered⟩
    | ok s' => exact ⟨s', rfl, gathered.more added⟩

theorem gathered_after (name description : String) (calls : List Call) :
    ((start name description).after calls).Gathered name description := by
  have begun : (start name description).Gathered name description := ⟨.empty, rfl, .none⟩
  generalize start name description = h at begun
  induction calls generalizing h with
  | nil => exact begun
  | cons c calls ih => exact ih _ (begun.call c)

/-- After any calls a histogram refuses a value that cannot be added, and only such a one, and then it stays
as it is. With nothing accepted since the last reset it reports nothing but zeros. Of integers it shows the
number and the range; each becomes an integer that is a double, itself up to the limit, and as long as the
sums of these stay below the limit, it shows their sum and a mean within the range. -/
theorem after_shows (name description : String) (calls : List Call) :
    let h := (start name description).after calls
    (∀ d, (∃ e, h.metric.update .observe (some d) = .error e) ↔ ¬d.Addable) ∧
      (∀ d e, h.metric.update .observe (some d) = .error e → h.call (.observe d) = h) ∧
      (h.accepted = [] → ∀ part ∈ ["count", "sum", "avg", "min", "max"], h.metric.Reports part 0) ∧
      (∀ values : List Int, h.accepted.map Datum.int? = values.map some →
        h.metric.Ranges values ∧ (∃ doubles, List.Forall₂ Becomes values doubles) ∧
        ∀ doubles, List.Forall₂ Becomes values doubles → Summary.Bounded doubles →
          h.metric.Averages values doubles.sum) ∧
      ∀ i : Int, i.natAbs ≤ limit → Becomes i i := by
  intro h
  obtain ⟨s, shown, gathered⟩ : h.Gathered name description := gathered_after name description calls
  refine ⟨fun d => ?_, fun d e refused => ?_, fun nothing => ?_, fun values whole => ?_,
    fun i bound => Number.becomes_self bound⟩
  · rw [shown, update_observe, ← Summary.exists_observe_iff gathered.numeric]
    cases s.observe d <;> simp [Except.map]
  · rw [History.call, refused]
  · rw [nothing] at gathered
    obtain rfl := gathered.eq_empty
    rw [shown]
    exact reports_empty name description
  · have ints : List.Forall₂ (fun d v => Datum.int? d = some v) h.accepted values := by
      rwa [← List.forall₂_eq_eq_eq, List.forall₂_map_left_iff, List.forall₂_map_right_iff] at whole
    have become := Summary.exists_doubles ints gathered.addable
    rw [shown]
    refine ⟨?_, become, fun doubles become bounded => ?_⟩
    · obtain ⟨doubles, become⟩ := become
      exact ranges_of_tells (gathered.tells ints become)
    · exact averages_of_tells (gathered.tells ints become) become bounded

/-- Truth values count, text and integers too large are refused, and an odd integer beyond the limit becomes
its even neighbour. -/
theorem after_shows_mixed :
    let calls := [.observe (.int 7), .reset, .observe (.bool true), .observe (.text "x"),
      .observe (.int (2 ^ 256 * 2 ^ 256 * 2 ^ 256 * 2 ^ 256)), .observe (.int (-9007199254740991)),
      .observe (.int 18014398509481981)]
    let values := [1, -9007199254740991, 18014398509481981]
    let doubles := [1, -9007199254740991, 18014398509481980]
    let h := (start "m" "").after calls
    (∃ e, h.metric.update .observe (some (.text "x")) = .error e) ∧ h.call (.observe (.text "x")) = h ∧
      h.accepted.map Datum.int? = values.map some ∧ List.Forall₂ Becomes values doubles ∧
      Summary.Bounded doubles ∧ h.metric.Ranges values ∧ h.metric.Averages values 9007199254740990 ∧
      ((start "m" "").after (calls ++ [.reset])).accepted = [] ∧
      ((start "m" "").after (calls ++ [.reset])).metric.Reports "avg" 0 ∧ Becomes 1 1 := by
  intro calls values doubles h
  obtain ⟨refuses, stays, -, shows, exact⟩ := after_shows "m" "" calls
  obtain ⟨-, -, empty, -⟩ := after_shows "m" "" (calls ++ [.reset])
  obtain ⟨e, refused⟩ := (refuses (.text "x")).2 fun ⟨_, _, number, _⟩ => nomatch number
  have whole : h.accepted.map Datum.int? = values.map some := by decide +kernel
  have becomes : List.Forall₂ Becomes values doubles :=
    .cons (exact 1 (by decide)) (.cons (exact _ (by decide))
      (.cons (Number.becomes_of_finite (by decide +kernel) (by decide +kernel)) .nil))
  have bounded : Summary.Bounded doubles := by decide +kernel
  have nothing : ((start "m" "").after (calls ++ [.reset])).accepted = [] := by
    rw [after, List.foldl_append]
    rfl
  obtain ⟨ranges, -, averages⟩ := shows values whole
  exact ⟨⟨e, refused⟩, stays _ e refused, whole, becomes, bounded, ranges,
    averages doubles becomes bounded, nothing, empty nothing "avg" (by simp), exact 1 (by decide)⟩

/-- An odd integer beyond the limit is no double, so the sum misses it, though all sums stay below. -/
theorem after_misses :
    let calls := [.observe (.int (-9007199254740991)), .observe (.int 18014398509481981)]
    let values := [-9007199254740991, 18014398509481981]
    let h := (start "m" "").after calls
    h.accepted.map Datum.int? = values.map some ∧ Summary.Bounded values ∧
      ¬h.metric.Reports "sum" values.sum := by
  intro calls values h
  have other : (h.metric.state.lookup "sum").any (·.same (.int values.sum)) = false := by decide +kernel
  refine ⟨by decide +kernel, by decide +kernel, ?_⟩
  rintro ⟨d, found, same⟩
  rw [found, Option.any_some, same] at other
  cases other

end History

end Metric

end Stencil
