import Stencil.Proofs.Number.Whole

/-!
Integers as doubles. An integer that is converted lies on the same side as its double of every whole number
up to the limit (`holds_floatOfInt`), and it becomes an integer again, itself up to the limit (`Becomes`). A
total that is divided by a count keeps its side, whether the count is a double or not (`divide_count`).
-/

namespace Stencil.Number

open Float.Model Float.Model.UnpackedFloat

variable {n : Nat} {q r : ℚ} {x : Float} {i w : Int}

theorem rounds_ofScientific (h : 0 < n) : Rounds n (UnpackedFloat.ofScientific Format.binary64 n 0) := by
  have filled : n ≠ 0 := Nat.ne_of_gt h
  have near : ¬(0 : Int) > 2 ^ Format.binary64.exponentBits := by decide
  have far : ¬(0 : Int) < -((2 ^ Format.binary64.exponentBits : Int) + n.log2) := by
    have up : (0 : Int) ≤ 2 ^ Format.binary64.exponentBits := by decide
    omega
  rw [UnpackedFloat.ofScientific, dif_neg filled, if_neg near, if_neg far, if_pos le_rfl, UnpackedFloat.mul]
  have digits : n <<< Format.binary64.mantissaBits * 10 ^ (0 : Int).toNat = n * 2 ^ 53 :=
    (Nat.mul_one _).trans (Nat.shiftLeft_eq _ _)
  rw [digits]
  refine rounds_roundWithAccuracy .positive (q := n) ?_ ?_
  · have exact : (n : ℚ) / 2 ^ (-(Format.binary64.mantissaBits : Int) + 0) = ((n * 2 ^ 53 : Nat) : ℚ) := by
      change (n : ℚ) / 2 ^ (-53 : ℤ) = _
      push_cast
      rw [zpow_neg, div_inv_eq_mul]
      rfl
    rw [exact]
    exact brackets_exact _
  · change (-53 : Int) ≤ Format.binary64.targetExponent (totalExponent (n * 2 ^ 53) (-53))
    rw [targetExponent_eq, log2_mul_two_pow filled]
    omega

theorem holds_ofNat_or (n : Nat) :
    (∃ r, Holds (Float.ofNat n) r ∧ Keeps n r) ∨
    ((limit : ℚ) < |(n : ℚ)| ∧ (Float.ofNat n).isInf = true) := by
  obtain small | large := Nat.lt_or_ge n limit
  · exact .inl ⟨n, holds_ofNat small, keeps_refl _⟩
  · have slow : ¬(n < 2 ^ 53 ∧ 0 ≤ 22) := fun fast => Nat.not_lt_of_le large fast.1
    have positive : 0 < n := Nat.lt_of_lt_of_le (Nat.two_pow_pos 53) large
    have general : Float.ofNat n = .ofModel (.pack (UnpackedFloat.ofScientific Format.binary64 n 0)) := by
      change Float.ofScientific n false 0 = _
      rw [Float.ofScientific, dif_neg slow]
      rfl
    rw [general]
    exact (rounds_ofScientific positive).holds_or

theorem isInf_neg (h : x.isInf = true) : x.neg.isInf = true := by
  change x.toModel.unpack.isInf = true at h
  change (UnpackedFloat.unpack Format.binary64
    (UnpackedFloat.pack Format.binary64 x.toModel.unpack.neg)).isInf = true
  cases u : x.toModel.unpack with
  | infinity s => cases s <;> rfl
  | _ => rw [u] at h; cases h

theorem holds_ofInt_or (i : Int) :
    (∃ r, Holds (Float.ofInt i) r ∧ Keeps i r) ∨
    ((limit : ℚ) < |(i : ℚ)| ∧ (Float.ofInt i).isInf = true) := by
  cases i with
  | ofNat n => exact holds_ofNat_or n
  | negSucc n =>
    rw [Int.cast_negSucc n, abs_neg]
    obtain ⟨r, holds, keeps⟩ | ⟨large, infinite⟩ := holds_ofNat_or (n + 1)
    · exact .inl ⟨-r, holds.neg, keeps.neg⟩
    · exact .inr ⟨large, isInf_neg infinite⟩

/-- An integer that converts becomes a double on the same side of every whole number up to the limit. -/
theorem holds_floatOfInt (h : floatOfInt i = .ok x) : ∃ r, Holds x r ∧ Keeps i r := by
  rw [floatOfInt] at h
  split at h
  · cases h
  · rename_i finite
    cases h
    exact (holds_ofInt_or i).resolve_right fun beyond => finite beyond.2

/-- An integer becomes another one when it is converted to a double: they are the same if it is a double. -/
def Becomes (i w : Int) : Prop := ∃ x, floatOfInt i = .ok x ∧ eq (.float x) (.int w) = true

theorem becomes_of_finite (finite : (Float.ofInt i).isInf = false)
    (same : eq (.float (Float.ofInt i)) (.int w) = true) : Becomes i w := by
  refine ⟨Float.ofInt i, ?_, same⟩
  rw [floatOfInt, finite]
  rfl

theorem Holds.eq_iff {r : ℚ} (h : Holds x r) (i : Int) : eq (.float x) (.int i) = true ↔ r = i := by
  rw [eq, compare?, h.compareReading, beq_iff_eq, Option.some.injEq, compare_eq_iff_eq]

theorem Becomes.holds (h : Becomes i w) : ∃ x, floatOfInt i = .ok x ∧ Holds x w ∧ Keeps i w := by
  obtain ⟨x, converted, same⟩ := h
  obtain ⟨r, holds, keeps⟩ := holds_floatOfInt converted
  obtain rfl := (holds.eq_iff w).1 same
  exact ⟨x, converted, holds, keeps⟩

theorem Becomes.keeps (h : Becomes i w) : Keeps i w := by
  obtain ⟨-, -, -, keeps⟩ := h.holds
  exact keeps

theorem becomes_self (bound : i.natAbs ≤ limit) : Becomes i i := by
  have small : |i| ≤ limit := by rw [Int.abs_eq_natAbs]; exact_mod_cast bound
  have within : |(i : ℚ)| ≤ limit := by exact_mod_cast small
  obtain ⟨r, holds, keeps⟩ := (holds_ofInt_or i).resolve_right fun beyond =>
    absurd within (not_le_of_gt beyond.1)
  exact becomes_of_finite holds.isInf ((holds.eq_iff i).2 (keeps.eq small))

theorem Holds.exists_int (h : Holds x r) (large : (limit : ℚ) ≤ |r|) : ∃ w : Int, r = w := by
  obtain ⟨s, u, rfl⟩ | ⟨s, m, e, positive, u, rfl⟩ := h.cases
  · exact ⟨0, Int.cast_zero.symm⟩
  · have room : (m : ℚ) < limit := by exact_mod_cast (Holds.fits u).1.mantissa
    have up : (0 : ℚ) < m := by exact_mod_cast positive
    have above : 0 ≤ e := by
      by_contra below
      have fraction : (2 : ℚ) ^ e ≤ 1 := zpow_le_one_of_nonpos₀ one_le_two (by omega)
      rw [abs_signed, abs_of_pos (mul_pos up (two_zpow_pos e))] at large
      exact absurd (large.trans (mul_le_of_le_one_right up.le fraction)) (not_le_of_gt room)
    refine ⟨s.apply m * 2 ^ e.toNat, ?_⟩
    have power : (2 : ℚ) ^ e = 2 ^ e.toNat := by
      rw [← zpow_natCast, Int.toNat_of_nonneg above]
    push_cast
    rw [cast_apply, signed_mul, power]

theorem exists_becomes (h : floatOfInt i = .ok x) : ∃ w, Becomes i w := by
  obtain ⟨r, holds, keeps⟩ := holds_floatOfInt h
  obtain small | large := Nat.le_total i.natAbs limit
  · exact ⟨i, becomes_self small⟩
  · have beyond : (limit : ℚ) ≤ |(i : ℚ)| := by
      rw [← Int.cast_abs, Int.abs_eq_natAbs, Int.cast_natCast]
      exact_mod_cast large
    obtain ⟨w, rfl⟩ := holds.exists_int (keeps.beyond beyond)
    exact ⟨w, x, h, (holds.eq_iff w).2 rfl⟩

theorem keeps_div {S : Int} {c : ℚ} (h : Keeps n c) (bound : |S| < limit) :
    Keeps ((S : ℚ) / n) (S / c) := by
  obtain small | large := Nat.le_total n limit
  · have exact : c = (n : Int) := Keeps.eq (k := n) h (by rw [Nat.abs_cast]; exact_mod_cast small)
    rw [exact, Int.cast_natCast]
    exact keeps_refl _
  -- beyond the limit both quotients have the sign of the total and lie within one
  have counted : (limit : ℚ) ≤ n := by exact_mod_cast large
  have top := (h limit (by simp)).1 (by exact_mod_cast large)
  have above : (limit : ℚ) ≤ c := by exact_mod_cast top
  have unit : (0 : ℚ) < limit := by norm_num [limit]
  have inside : ∀ d : ℚ, (limit : ℚ) ≤ d → |(S : ℚ) / d| < 1 := by
    intro d le
    have small : |(S : ℚ)| < limit := by exact_mod_cast bound
    rw [abs_div, abs_of_pos (unit.trans_le le), div_lt_one (unit.trans_le le)]
    exact small.trans_le le
  have sign : ∀ d : ℚ, (limit : ℚ) ≤ d → (0 ≤ (S : ℚ) / d ↔ 0 ≤ S) := by
    intro d le
    rw [le_div_iff₀ (unit.trans_le le), zero_mul, Int.cast_nonneg_iff]
  have opposite : ∀ d : ℚ, (limit : ℚ) ≤ d → ((S : ℚ) / d ≤ 0 ↔ S ≤ 0) := by
    intro d le
    rw [div_le_iff₀ (unit.trans_le le), zero_mul, Int.cast_nonpos]
  obtain ⟨low, high⟩ := abs_lt.1 (inside n counted)
  obtain ⟨low', high'⟩ := abs_lt.1 (inside c above)
  intro k _
  obtain below | rfl | above' := lt_trichotomy k 0
  · have step : (k : ℚ) ≤ -1 := by exact_mod_cast (show k ≤ -1 by omega)
    exact ⟨fun _ => step.trans low'.le, fun le => absurd (low.trans_le le) (not_lt_of_ge step)⟩
  · rw [Int.cast_zero, sign n counted, sign c above, opposite n counted, opposite c above]
    exact ⟨id, id⟩
  · have step : (1 : ℚ) ≤ k := by exact_mod_cast (show 1 ≤ k by omega)
    exact ⟨fun le => absurd (le.trans_lt high) (not_lt_of_ge step), fun _ => high'.le.trans step⟩

theorem keeps_zero (h : |q| < 1) : Keeps q 0 := by
  obtain ⟨low, high⟩ := abs_lt.1 h
  intro k _
  refine ⟨fun le => ?_, fun le => ?_⟩
  · have step : k < 1 := by exact_mod_cast le.trans_lt high
    exact_mod_cast Int.le_of_lt_add_one step
  · have step : -1 < k := by exact_mod_cast low.trans_le le
    exact_mod_cast (show 0 ≤ k by omega)

/-- A whole double divided by a positive count lies on the same side as the exact quotient of every whole
number up to the limit. Only a count beyond the limit may fail to convert, and then it is as if the quotient
were nothing. -/
theorem divide_count {S : Int} (h : Holds x S) (bound : |S| < limit) (positive : 0 < n) :
    (∃ y r, divide (.float x) (.int n) = .ok (.float y) ∧ Holds y r ∧ Keeps ((S : ℚ) / n) r) ∨
    (∃ e, divide (.float x) (.int n) = .error e) ∧ Keeps ((S : ℚ) / n) 0 := by
  have unfolded : divide (.float x) (.int n) = (do
      let y ← floatOfInt n
      if y == 0.0 then .error .floatDivisionByZero else .ok (float (x / y))) := rfl
  have total : |(S : ℚ)| < limit := by exact_mod_cast bound
  rw [unfolded]
  cases converted : floatOfInt n with
  | error e =>
    refine .inr ⟨⟨e, rfl⟩, keeps_zero ?_⟩
    have large : limit ≤ n := by
      by_contra small
      rw [floatOfInt_ofNat (Nat.lt_of_not_le small)] at converted
      cases converted
    have count : (limit : ℚ) ≤ n := by exact_mod_cast large
    have up : (0 : ℚ) < n := by exact_mod_cast positive
    rw [abs_div, abs_of_pos up, div_lt_one up]
    exact total.trans_le count
  | ok c =>
    obtain ⟨q, holds, keeps⟩ := holds_floatOfInt converted
    rw [Int.cast_natCast] at keeps
    have one : (1 : ℚ) ≤ q := by
      have least := (keeps 1 (by norm_num [limit])).1 (by exact_mod_cast positive)
      exact_mod_cast least
    have up : 0 < q := one_pos.trans_le one
    have within : |(S : ℚ) / q| ≤ limit := by
      rw [abs_div, abs_of_pos up]
      exact (div_le_self (abs_nonneg _) one).trans total.le
    obtain ⟨r, result, rounded⟩ := h.div holds up within
    refine .inl ⟨x / c, r, ?_, result, (keeps_div keeps bound).trans rounded⟩
    change (if c == 0.0 then _ else _) = _
    rw [holds.beq_zero up]
    rfl

end Stencil.Number
