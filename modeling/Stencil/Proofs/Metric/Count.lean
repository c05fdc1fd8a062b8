import Stencil.Proofs.Metric.Summary

/-!
Metrics that count. As long as it stays below the limit of whole doubles, a counter that has counted to
a number shows exactly that number, and a histogram knows how many values it has seen.
-/

namespace Stencil

open Number (limit)

namespace Metric

def StandsAt (m : Metric) (n : Nat) : Prop :=
  m.measure = .counter (.float (Float.ofNat n)) ∨ m.measure = .gauge (.float (Float.ofNat n))

def Shows (m : Metric) (n : Nat) : Prop := m.toDatum.same (.int n) = true

def Saw (m : Metric) (n : Nat) : Prop :=
  ∃ total least greatest : Float,
    m.measure = .histogram ⟨n, .float total, .float least, .float greatest⟩

variable {m : Metric} {n k : Nat}

theorem StandsAt.shows_iff (h : m.StandsAt n) (bound : n ≤ limit) : m.Shows k ↔ n = k := by
  have value : m.toDatum = .float (Float.ofNat n) := by
    obtain h | h := h <;> rw [toDatum, h]
  rw [Shows, value]
  exact (Number.eq_ofNat_iff bound).trans Int.ofNat_inj

theorem StandsAt.shows (h : m.StandsAt n) (small : n < limit) : m.Shows n :=
  (h.shows_iff (Nat.le_of_lt small)).2 rfl

theorem StandsAt.of_sum {i : Int} (h : m.StandsAt n)
    (sum : Datum.sum "+=" (.float (Float.ofNat n)) (.int i) = .ok (.float (Float.ofNat k))) :
    (m.add i).StandsAt k := by
  obtain ⟨name, description, measure⟩ := m
  obtain h | h := h <;> cases h
  · refine .inl ?_
    simp only [Metric.add, update, Option.getD_some, sum]
    rfl
  · refine .inr ?_
    simp only [Metric.add, update, Option.getD_some, sum]
    rfl

theorem StandsAt.add (h : m.StandsAt n) (small : n + k < limit) : (m.add k).StandsAt (n + k) := by
  refine h.of_sum ?_
  have exact : Number.add (.float (Float.ofNat n)) (.int k) = .ok (.float (Float.ofNat (n + k))) :=
    Number.add_ofNat small
  change ((Number.add (.float (Float.ofNat n)) (.int k)).map Datum.ofNumber).mapError
    MetricError.arithmetic = _
  rw [exact]
  rfl

theorem StandsAt.next (h : m.StandsAt (min n limit)) : (m.add 1).StandsAt (min (n + 1) limit) := by
  refine h.of_sum ?_
  have same : min (min n limit + 1) limit = min (n + 1) limit := by omega
  have sum := Number.add_one_ofNat (Nat.min_le_right n limit)
  rw [same] at sum
  change ((Number.add (.float (Float.ofNat (min n limit))) (.int 1)).map Datum.ofNumber).mapError
    MetricError.arithmetic = _
  rw [sum]
  rfl

theorem StandsAt.back (h : m.StandsAt 1) : (m.add (-1)).StandsAt 0 := h.of_sum rfl

theorem observe_float (n : Nat) (total least greatest x : Float) :
    ∃ total' least' greatest' : Float,
      Summary.observe ⟨n, .float total, .float least, .float greatest⟩ (.float x) =
        .ok ⟨n + 1, .float total', .float least', .float greatest'⟩ := by
  rw [Summary.observe_eq rfl rfl rfl rfl rfl]
  split <;> split <;> exact ⟨_, _, _, rfl⟩

theorem Saw.observe (h : m.Saw n) (x : Float) : (m.observe x).Saw (n + 1) := by
  obtain ⟨name, description, measure⟩ := m
  obtain ⟨total, least, greatest, h⟩ := h
  cases h
  obtain ⟨total', least', greatest', seen⟩ := observe_float n total least greatest x
  refine ⟨total', least', greatest', ?_⟩
  simp only [Metric.observe, update, seen]
  rfl

theorem Saw.count (h : m.Saw n) : m.state.lookup "count" = some (.int n) := by
  obtain ⟨total, least, greatest, h⟩ := h
  rw [state, h]
  rfl

end Metric

end Stencil
