import Stencil.Proofs.Number.Rounding

/-!
Arithmetic on doubles. The operations round the exact result (`Holds.rounds_add`, `Holds.rounds_div`), so a
sum of whole doubles is exact within the limit (`Holds.add_whole`).
-/

namespace Stencil.Number

open Float.Model Float.Model.UnpackedFloat

variable {m : Nat} {e t : Int} {q a b : ℚ} {x y : Float} {i j : Int}

theorem Holds.fits {h : 0 < m} (u : x.toModel.unpack = .finite s m e h) : Fits m e ∧ e ≤ 971 := by
  obtain ⟨fits, small, -⟩ := ofBits_finite _ u
  exact ⟨fits, small⟩

theorem Holds.rounds (h : Holds x q) : Rounds q x.toModel.unpack := by
  obtain ⟨s, u, rfl⟩ | ⟨s, m, e, positive, u, rfl⟩ := h.cases
  · rw [u]
    exact .zero s (keeps_refl 0)
  · rw [u]
    exact .finite s m e positive (Holds.fits u).1 (keeps_refl _)

theorem Holds.neg (h : Holds x q) : Holds x.neg (-q) := by
  obtain ⟨s, u, rfl⟩ | ⟨s, m, e, positive, u, rfl⟩ := h.cases
  · change Holds (.ofModel (.pack x.toModel.unpack.neg)) _
    rw [u, neg_zero]
    exact holds_pack_zero (-s)
  · obtain ⟨fits, small⟩ := Holds.fits u
    change Holds (.ofModel (.pack x.toModel.unpack.neg)) _
    rw [u]
    have opposite : -signed s (m * 2 ^ e) = signed (-s) (m * 2 ^ e) := by
      cases s
      · exact neg_neg _
      · rfl
    rw [opposite]
    exact holds_pack (-s) positive fits small

theorem apply_decreaseExponent (s : Sign) (m : Nat) (least : t ≤ e) :
    (s.apply (decreaseExponent m e t).1 : ℚ) * 2 ^ t = signed s (m * 2 ^ e) := by
  rw [decreaseExponent]
  dsimp only
  rw [cast_apply, Nat.shiftLeft_eq, ← signed_mul, zpow_eq_pow_mul least]
  push_cast
  rw [mul_assoc]

theorem Holds.rounds_add (h : Holds x a) (h' : Holds y b) :
    Rounds (a + b) (UnpackedFloat.add Format.binary64 x.toModel.unpack y.toModel.unpack) := by
  obtain ⟨s, u, rfl⟩ | ⟨s, m, e, positive, u, rfl⟩ := h.cases
  · obtain ⟨s', u', rfl⟩ | ⟨s', m', e', positive', u', rfl⟩ := h'.cases
    · rw [u, u', zero_add]
      cases s <;> cases s' <;> exact .zero _ (keeps_refl 0)
    · have right := h'.rounds
      rw [u'] at right
      rw [u, u', zero_add]
      exact right
  · obtain ⟨s', u', rfl⟩ | ⟨s', m', e', positive', u', rfl⟩ := h'.cases
    · have left := h.rounds
      rw [u] at left
      rw [u, u', add_zero]
      exact left
    · have sum := rounds_normalize (s.apply (decreaseExponent m e (min e e')).1 +
        s'.apply (decreaseExponent m' e' (min e e')).1) (min e e') .positive
      rw [Int.cast_add, add_mul, apply_decreaseExponent s m (min_le_left e e'),
        apply_decreaseExponent s' m' (min_le_right e e')] at sum
      rw [u, u']
      exact sum

theorem wide_quotient {m' : Nat} (h : 0 < m) (h' : 0 < m') (e e' : Int)
    (least : t = min (e - e') (Format.binary64.targetExponent (totalExponent m e - totalExponent m' e'))) :
    t ≤ Format.binary64.targetExponent (totalExponent (m <<< (e - e' - t).toNat / m') t) := by
  have lowest : Format.binary64.minExponent = -1074 := rfl
  have bits : Format.binary64.mantissaBits = 53 := rfl
  rw [Format.targetExponent, lowest, bits, totalExponent, totalExponent] at least
  rw [targetExponent_eq, Nat.shiftLeft_eq]
  obtain low | high := le_or_gt t (-1074)
  · omega
  · have amount : m'.log2 + 53 ≤ m.log2 + (e - e' - t).toNat := by omega
    have quotient : 2 ^ 52 ≤ m * 2 ^ (e - e' - t).toNat / m' := by
      have below : m' < 2 ^ (m'.log2 + 1) := Nat.lt_log2_self
      have above : 2 ^ m.log2 ≤ m := Nat.log2_self_le (Nat.ne_of_gt h)
      rw [Nat.le_div_iff_mul_le h']
      calc 2 ^ 52 * m' ≤ 2 ^ 52 * 2 ^ (m'.log2 + 1) := Nat.mul_le_mul_left _ below.le
        _ = 2 ^ (m'.log2 + 53) := by rw [← pow_add]; congr 1; omega
        _ ≤ 2 ^ (m.log2 + (e - e' - t).toNat) := Nat.pow_le_pow_right two_pos amount
        _ = 2 ^ m.log2 * 2 ^ (e - e' - t).toNat := pow_add _ _ _
        _ ≤ m * 2 ^ (e - e' - t).toNat := Nat.mul_le_mul_right _ above
    have log := (Nat.le_log2 (by omega)).2 quotient
    omega

theorem Holds.rounds_div (h : Holds x a) (h' : Holds y b) (positive : 0 < b) :
    Rounds (a / b) (UnpackedFloat.div Format.binary64 x.toModel.unpack y.toModel.unpack) := by
  obtain ⟨s', u', rfl⟩ | ⟨s', m', e', filled', u', rfl⟩ := h'.cases
  · exact absurd positive (lt_irrefl 0)
  have unit := two_zpow_pos e'
  have up : s' = .positive := by
    cases s' with
    | positive => rfl
    | negative =>
      have nonneg : (0 : ℚ) ≤ m' * 2 ^ e' := mul_nonneg m'.cast_nonneg unit.le
      exact absurd positive (not_lt_of_ge (neg_nonpos.2 nonneg))
  subst up
  obtain ⟨s, u, rfl⟩ | ⟨s, m, e, filled, u, rfl⟩ := h.cases
  · rw [u, u', zero_div]
    exact .zero _ (keeps_refl 0)
  · obtain ⟨t, least⟩ : ∃ t, t = min (e - e')
        (Format.binary64.targetExponent (totalExponent m e - totalExponent m' e')) := ⟨_, rfl⟩
    have same : s / .positive = s := by cases s <;> rfl
    rw [u, u', UnpackedFloat.div, divCore]
    dsimp only
    rw [← least, same, ← signed_div]
    refine rounds_roundWithAccuracy s ?_ (wide_quotient filled filled' e e' least)
    have exact : (m * 2 ^ e / (signed .positive (m' * 2 ^ e')) / 2 ^ t : ℚ) =
        ((m <<< (e - e' - t).toNat : Nat) : ℚ) / m' := by
      have power : (2 : ℚ) ^ e = 2 ^ (e - e' - t).toNat * (2 ^ e' * 2 ^ t) := by
        rw [← zpow_add₀ two_ne_zero, Int.sub_sub]
        exact zpow_eq_pow_mul (by omega)
      have denominator : (m' : ℚ) ≠ 0 := by exact_mod_cast Nat.ne_of_gt filled'
      have lower := unit.ne'
      have scale := (two_zpow_pos t).ne'
      rw [signed, power, Nat.shiftLeft_eq]
      push_cast
      field_simp
    rw [exact]
    exact brackets_fraction _ filled'

theorem Holds.add_whole (h : Holds x i) (h' : Holds y j) (bound : |i + j| ≤ limit) :
    Holds (x + y) ((i + j : Int) : ℚ) := by
  obtain ⟨r, holds, keeps⟩ := (h.rounds_add h').holds (by exact_mod_cast bound)
  rw [← Int.cast_add] at keeps
  rw [keeps.eq bound] at holds
  exact holds

theorem Holds.div (h : Holds x a) (h' : Holds y b) (positive : 0 < b) (bound : |a / b| ≤ limit) :
    ∃ r, Holds (x / y) r ∧ Keeps (a / b) r :=
  (h.rounds_div h' positive).holds bound

theorem Holds.beq_zero (h : Holds y b) (positive : 0 < b) : (y == 0.0) = false := by
  have zero : (0.0 : Float).toModel.unpack = .zero .positive := rfl
  change (y.toModel.unpack.compare (0.0 : Float).toModel.unpack == some .eq) = false
  rw [zero]
  obtain ⟨s, u, rfl⟩ | ⟨s, m, e, filled, u, rfl⟩ := h.cases
  · exact absurd positive (lt_irrefl 0)
  · rw [u]
    cases s <;> rfl

theorem Holds.isInf (h : Holds x q) : x.isInf = false := by
  change x.toModel.unpack.isInf = false
  obtain ⟨s, u, -⟩ | ⟨s, m, e, positive, u, -⟩ := h.cases <;> rw [u] <;> rfl

end Stencil.Number
