import Mathlib
import Stencil.Number

/-!
The values of doubles. A double stands for a rational number (`Holds`), unless it is infinite or not a
number. A number has one mantissa and exponent that fit (`Fits.unique`), packing keeps what fits
(`unpack_pack`), and the order of a double and an integer is the order of the numbers that they stand for
(`Holds.compareReading`).
-/

namespace Stencil.Number

open Float.Model Float.Model.UnpackedFloat

def signed : Sign → ℚ → ℚ
  | .negative, q => -q
  | .positive, q => q

/-- The number that an unpacked double stands for; none if it is infinite or not a number. -/
def rational? : UnpackedFloat → Option ℚ
  | .zero _ => some 0
  | .finite s m e _ => some (signed s (m * 2 ^ e))
  | _ => none

def Holds (x : Float) (q : ℚ) : Prop := rational? x.toModel.unpack = some q

/-- A mantissa and an exponent that a double has room for: the mantissa is full unless the exponent is the
least one. -/
structure Fits (m : Nat) (e : Int) : Prop where
  mantissa : m < 2 ^ 53
  least : -1074 ≤ e
  full : 2 ^ 52 ≤ m ∨ e = -1074

def limit : Nat := 2 ^ 53

variable {m n : Nat} {e t : Int} {s : Sign} {q r : ℚ} {x : Float}

theorem log2_mul_two_pow (h : n ≠ 0) (j : Nat) : (n * 2 ^ j).log2 = n.log2 + j := by
  induction j with
  | zero => simp
  | succ j ih =>
    have filled : n * 2 ^ j ≠ 0 := Nat.mul_ne_zero h (Nat.ne_of_gt (Nat.two_pow_pos j))
    rw [Nat.pow_succ, ← Nat.mul_assoc, Nat.mul_comm _ 2, Nat.log2_two_mul filled, ih]
    omega

theorem log2_le (h : n ≠ 0) (small : n < limit) : n.log2 ≤ 52 := by
  have bound := (Nat.log2_lt h).2 small
  omega

theorem two_zpow_pos (e : Int) : (0 : ℚ) < 2 ^ e := zpow_pos two_pos e

theorem zpow_eq_pow_mul (h : t ≤ e) : (2 : ℚ) ^ e = 2 ^ (e - t).toNat * 2 ^ t := by
  have parts : e = (e - t).toNat + t := by omega
  conv_lhs => rw [parts, zpow_add₀ two_ne_zero, zpow_natCast]

theorem Fits.exponent_le {m' : Nat} {e' : Int} (h : Fits m e) (h' : Fits m' e')
    (same : (m : ℚ) * 2 ^ e = m' * 2 ^ e') : e' ≤ e := by
  by_contra below
  have full : (2 ^ 52 : ℚ) ≤ m' := by exact_mod_cast h'.full.resolve_right (by have := h.least; omega)
  have room : (m : ℚ) < 2 ^ 53 := by exact_mod_cast h.mantissa
  have lifted : (m : ℚ) = m' * 2 ^ (e' - e).toNat := by
    rw [zpow_eq_pow_mul (show e ≤ e' by omega), ← mul_assoc] at same
    exact mul_right_cancel₀ (two_zpow_pos e).ne' same
  have two : (2 : ℚ) ≤ 2 ^ (e' - e).toNat := le_self_pow₀ one_le_two (by omega)
  have product : (2 ^ 52 : ℚ) * 2 ≤ m' * 2 ^ (e' - e).toNat :=
    mul_le_mul full two (by norm_num) (by positivity)
  rw [← lifted] at product
  linarith

theorem Fits.unique {m' : Nat} {e' : Int} (h : Fits m e) (h' : Fits m' e')
    (same : (m : ℚ) * 2 ^ e = m' * 2 ^ e') : m = m' ∧ e = e' := by
  obtain rfl : e = e' := le_antisymm (h'.exponent_le h same.symm) (h.exponent_le h' same)
  exact ⟨by exact_mod_cast mul_right_cancel₀ (two_zpow_pos e).ne' same, rfl⟩

section packing

theorem toNat_one_append (m : BitVec 52) : (1#1 ++ m).toNat = 2 ^ 52 + m.toNat := by
  rw [BitVec.toNat_append, ← Nat.shiftLeft_add_eq_or_of_lt m.isLt]
  rfl

theorem unpackSign_packComponents (spec : Format) (s : Sign) (e : BitVec spec.exponentBits)
    (m : BitVec spec.mantissaBitsWithoutImplicit) :
    unpackSign (packComponents spec s e m) = s.toBitVec := by
  apply BitVec.eq_of_getLsbD_eq
  intro i hi
  obtain rfl : i = 0 := by omega
  simp [unpackSign, packComponents, BitVec.getLsbD_append, BitVec.getElem_append]

theorem ofBitVec_toBitVec (s : Sign) : Sign.ofBitVec s.toBitVec = s := by
  cases s <;> rfl

theorem unpack_pack_full (s : Sign) (h : 0 < m) (full : 2 ^ 52 ≤ m) (room : m < 2 ^ 53)
    (least : -1074 ≤ e) (small : e ≤ 971) :
    UnpackedFloat.unpack Format.binary64 (UnpackedFloat.pack Format.binary64 (.finite s m e h)) =
      .finite s m e h := by
  have bias : Format.binary64.exponentBias = 1023 := rfl
  have biased : (e + Format.binary64.exponentBias + Format.binary64.mantissaBitsWithoutImplicit).toNat =
      (e + 1075).toNat := by
    change (e + 1023 + 52).toNat = _
    omega
  have inside : ¬2 ^ Format.binary64.exponentBits ≤ (e + 1075).toNat + 1 := by
    change ¬2048 ≤ _
    omega
  have normal : m.log2 + 1 = Format.binary64.mantissaBits := by
    rw [(Nat.log2_eq_iff (Nat.ne_of_gt h)).2 ⟨full, room⟩]
    rfl
  have exponent : (BitVec.ofNat 11 (e + 1075).toNat).toNat = (e + 1075).toNat := by
    rw [BitVec.toNat_ofNat, Nat.mod_eq_of_lt]
    omega
  have differs : ∀ k : BitVec 11, (e + 1075).toNat ≠ k.toNat → BitVec.ofNat 11 (e + 1075).toNat ≠ k :=
    fun k other same => other (exponent.symm.trans (congrArg BitVec.toNat same))
  have finite : BitVec.ofNat 11 (e + 1075).toNat ≠ -1#11 := differs _ (by change _ ≠ 2047; omega)
  have normalised : BitVec.ofNat 11 (e + 1075).toNat ≠ 0#11 := differs _ (by change _ ≠ 0; omega)
  have mantissa : (1#1 ++ BitVec.ofNat 52 m).toNat = m := by
    rw [toNat_one_append, BitVec.toNat_ofNat]
    omega
  rw [UnpackedFloat.pack]
  dsimp only
  rw [biased, if_neg inside, if_pos normal, UnpackedFloat.unpack]
  simp only [unpackMantissa_packComponents, unpackExponent_packComponents, unpackSign_packComponents,
    ofBitVec_toBitVec]
  rw [if_neg finite, if_neg normalised]
  congr 1
  rw [exponent, bias]
  omega

theorem unpack_pack_part (s : Sign) (h : 0 < m) (part : m < 2 ^ 52) :
    UnpackedFloat.unpack Format.binary64 (UnpackedFloat.pack Format.binary64 (.finite s m (-1074) h)) =
      .finite s m (-1074) h := by
  have inside : ¬2 ^ Format.binary64.exponentBits ≤ (-1074 + (Format.binary64.exponentBias : Int) +
      Format.binary64.mantissaBitsWithoutImplicit).toNat + 1 := by
    decide
  have subnormal : ¬m.log2 + 1 = Format.binary64.mantissaBits := by
    have log : m.log2 < 52 := (Nat.log2_lt (Nat.ne_of_gt h)).2 part
    change ¬m.log2 + 1 = 53
    omega
  have mantissa : (BitVec.ofNat 52 m).toNat = m := by
    rw [BitVec.toNat_ofNat, Nat.mod_eq_of_lt part]
  have nonzero : BitVec.ofNat 52 m ≠ 0#52 := by
    intro same
    have value := congrArg BitVec.toNat same
    rw [mantissa] at value
    exact Nat.ne_of_gt h value
  rw [UnpackedFloat.pack]
  dsimp only
  rw [if_neg inside, if_neg subnormal, UnpackedFloat.unpack]
  simp only [unpackMantissa_packComponents, unpackExponent_packComponents, unpackSign_packComponents,
    ofBitVec_toBitVec]
  rw [if_neg (by decide), if_pos trivial, dif_neg nonzero]
  congr 1

theorem unpack_pack (s : Sign) (h : 0 < m) (fits : Fits m e) (small : e ≤ 971) :
    UnpackedFloat.unpack Format.binary64 (UnpackedFloat.pack Format.binary64 (.finite s m e h)) =
      .finite s m e h := by
  obtain full | part := Nat.lt_or_ge m (2 ^ 52) |>.symm
  · exact unpack_pack_full s h full fits.mantissa fits.least small
  · obtain rfl : e = -1074 := fits.full.resolve_left (Nat.not_le_of_lt part)
    exact unpack_pack_part s h part

theorem unpack_pack_large (s : Sign) (h : 0 < m) (large : 971 < e) :
    UnpackedFloat.unpack Format.binary64 (UnpackedFloat.pack Format.binary64 (.finite s m e h)) =
      .infinity s := by
  have beyond : 2 ^ Format.binary64.exponentBits ≤
      (e + Format.binary64.exponentBias + Format.binary64.mantissaBitsWithoutImplicit).toNat + 1 := by
    change 2048 ≤ (e + 1023 + 52).toNat + 1
    omega
  rw [UnpackedFloat.pack]
  dsimp only
  rw [if_pos beyond]
  cases s <;> rfl

theorem unpack_pack_zero (s : Sign) :
    UnpackedFloat.unpack Format.binary64 (UnpackedFloat.pack Format.binary64 (.zero s)) = .zero s := by
  cases s <;> rfl

end packing

section reading

variable (b : BitVec 64)

theorem toNat_unpackMantissa : (@unpackMantissa Format.binary64 b).toNat = b.toNat % 2 ^ 52 := by
  rw [unpackMantissa, BitVec.toNat_cast, BitVec.extractLsb_toNat, Nat.shiftRight_zero]
  rfl

theorem toNat_unpackExponent : (@unpackExponent Format.binary64 b).toNat = b.toNat / 2 ^ 52 % 2048 := by
  rw [unpackExponent, BitVec.toNat_cast, BitVec.extractLsb_toNat, Nat.shiftRight_eq_div_pow]
  rfl

theorem toNat_unpackSign : (@unpackSign Format.binary64 b).toNat = b.toNat / 2 ^ 63 % 2 := by
  rw [unpackSign, BitVec.toNat_cast, BitVec.extractLsb_toNat, Nat.shiftRight_eq_div_pow]
  rfl

theorem apply_unpackSign (m : Nat) :
    (Sign.ofBitVec (@unpackSign Format.binary64 b)).apply m =
      if b.toNat / 2 ^ 63 % 2 == 1 then -(m : Int) else m := by
  rw [← toNat_unpackSign]
  generalize @unpackSign Format.binary64 b = v
  obtain rfl | rfl : v = 0#1 ∨ v = 1#1 := by
    have bit := v.isLt
    obtain none | one : v.toNat = 0 ∨ v.toNat = 1 := by omega
    · exact .inl (BitVec.eq_of_toNat_eq none)
    · exact .inr (BitVec.eq_of_toNat_eq one)
  · rfl
  · rfl

theorem ofBits_part {n : Nat} (field : n / 2 ^ 52 % 2048 = 0) (filled : n % 2 ^ 52 ≠ 0) :
    Decimal.Reading.ofBits n = .finite (n / 2 ^ 63 % 2 == 1) ⟨n % 2 ^ 52, -1074, false⟩ := by
  change (if n / 2 ^ 52 % 2048 == 2047 then _ else if n / 2 ^ 52 % 2048 == 0 then
    if n % 2 ^ 52 == 0 then _ else _ else _) = _
  rw [field, if_neg (by decide), if_pos (by decide), if_neg (by simpa using filled)]
  rfl

theorem ofBits_full {n : Nat} (finite : n / 2 ^ 52 % 2048 ≠ 2047) (normal : n / 2 ^ 52 % 2048 ≠ 0) :
    ∃ narrow, Decimal.Reading.ofBits n =
      .finite (n / 2 ^ 63 % 2 == 1) ⟨n % 2 ^ 52 + 2 ^ 52, (n / 2 ^ 52 % 2048 : Nat) - 1075, narrow⟩ := by
  refine ⟨n % 2 ^ 52 == 0 && n / 2 ^ 52 % 2048 != 1, ?_⟩
  change (if n / 2 ^ 52 % 2048 == 2047 then _ else if n / 2 ^ 52 % 2048 == 0 then _ else _) = _
  rw [if_neg (by simpa using finite), if_neg (by simpa using normal)]
  rfl

theorem ofBits_finite {h : 0 < m} (u : UnpackedFloat.unpack Format.binary64 b = .finite s m e h) :
    Fits m e ∧ e ≤ 971 ∧ ∃ negative narrow,
      Decimal.Reading.ofBits b.toNat = .finite negative ⟨m, e, narrow⟩ ∧
      (if negative then -(m : Int) else m) = s.apply m := by
  have fraction : (@unpackMantissa Format.binary64 b).toNat < 2 ^ 52 := BitVec.isLt _
  have field := toNat_unpackExponent b
  have rest := toNat_unpackMantissa b
  rw [UnpackedFloat.unpack] at u
  dsimp only at u
  split at u
  · split at u <;> cases u
  rename_i finite
  have inside : b.toNat / 2 ^ 52 % 2048 ≠ 2047 := by
    intro same
    exact finite (BitVec.eq_of_toNat_eq (field.trans same))
  split at u
  · rename_i least
    have none : b.toNat / 2 ^ 52 % 2048 = 0 := by
      rw [← field, least]
      rfl
    split at u
    · cases u
    rename_i filled
    cases u
    have exponent : ((@unpackExponent Format.binary64 b).toNat : Int) -
        (Format.binary64.exponentBias + Format.binary64.mantissaBitsWithoutImplicit) + 1 = -1074 := by
      rw [least]
      rfl
    rw [exponent]
    refine ⟨⟨by omega, le_rfl, .inr rfl⟩, by decide, _, false, ?_, (apply_unpackSign b _).symm⟩
    rw [rest]
    refine ofBits_part none fun empty => filled (BitVec.eq_of_toNat_eq (rest.trans empty))
  · rename_i normal
    have some : b.toNat / 2 ^ 52 % 2048 ≠ 0 := by
      intro same
      exact normal (BitVec.eq_of_toNat_eq (field.trans same))
    have mantissa := toNat_one_append (@unpackMantissa Format.binary64 b)
    have exponent : ((@unpackExponent Format.binary64 b).toNat : Int) -
        (Format.binary64.exponentBias + Format.binary64.mantissaBitsWithoutImplicit) =
          (b.toNat / 2 ^ 52 % 2048 : Nat) - 1075 := by
      rw [field]
      rfl
    cases u
    obtain ⟨narrow, read⟩ := ofBits_full inside some
    rw [exponent]
    refine ⟨⟨?_, by omega, .inl ?_⟩, by omega, _, narrow, ?_, (apply_unpackSign b _).symm⟩
    · exact mantissa.trans_lt (by omega)
    · exact (Nat.le_add_right _ _).trans_eq mantissa.symm
    · rw [read]
      congr 2
      rw [← rest, Nat.add_comm]
      exact mantissa.symm

theorem ofBits_zero (u : UnpackedFloat.unpack Format.binary64 b = .zero s) :
    ∃ negative, Decimal.Reading.ofBits b.toNat = .zero negative := by
  have field := toNat_unpackExponent b
  have rest := toNat_unpackMantissa b
  rw [UnpackedFloat.unpack] at u
  dsimp only at u
  split at u
  · split at u <;> cases u
  split at u
  · rename_i least
    split at u
    · rename_i empty
      rw [least] at field
      rw [empty] at rest
      refine ⟨b.toNat / 2 ^ 63 % 2 == 1, ?_⟩
      change (if b.toNat / 2 ^ 52 % 2048 == 2047 then _ else if b.toNat / 2 ^ 52 % 2048 == 0 then
        if b.toNat % 2 ^ 52 == 0 then _ else _ else _) = _
      rw [← field, ← rest]
      rfl
    · cases u
  · cases u

end reading

theorem cast_apply (s : Sign) (m : Nat) : ((s.apply m : ℤ) : ℚ) = signed s m := by
  cases s <;> simp [Sign.apply, signed]

theorem signed_mul (s : Sign) (q r : ℚ) : signed s (q * r) = signed s q * r := by
  cases s <;> simp [signed]

theorem signed_div (s : Sign) (q r : ℚ) : signed s (q / r) = signed s q / r := by
  cases s <;> simp [signed, neg_div]

theorem Holds.cases (h : Holds x q) :
    (∃ s, x.toModel.unpack = .zero s ∧ q = 0) ∨
    (∃ s m e, ∃ positive : 0 < m,
      x.toModel.unpack = .finite s m e positive ∧ q = signed s (m * 2 ^ e)) := by
  rw [Holds] at h
  cases u : x.toModel.unpack with
  | notANumber => rw [u] at h; cases h
  | infinity s => rw [u] at h; cases h
  | zero s =>
    rw [u] at h
    cases h
    exact .inl ⟨s, rfl, rfl⟩
  | finite s m e positive =>
    rw [u] at h
    cases h
    exact .inr ⟨s, m, e, positive, rfl, rfl⟩

theorem compare_scaled {a b : ℤ} {u : ℚ} (unit : 0 < u) (left : (a : ℚ) = q * u)
    (right : (b : ℚ) = r * u) :
    compare a b = compare q r := by
  have less : a < b ↔ q < r := by rw [← Int.cast_lt (R := ℚ), left, right, mul_lt_mul_iff_left₀ unit]
  have more : b < a ↔ r < q := by rw [← Int.cast_lt (R := ℚ), left, right, mul_lt_mul_iff_left₀ unit]
  obtain lt | rfl | gt := lt_trichotomy q r
  · rw [compare_lt_iff_lt.2 lt, compare_lt_iff_lt.2 (less.2 lt)]
  · have same : a = b := by exact_mod_cast left.trans right.symm
    rw [compare_eq_iff_eq.2 rfl, compare_eq_iff_eq.2 same]
  · rw [compare_gt_iff_gt.2 gt, compare_gt_iff_gt.2 (more.2 gt)]

theorem Holds.compareReading (h : Holds x q) (i : Int) :
    compareReading (.ofFloat x) i = some (compare q i) := by
  obtain ⟨s, u, rfl⟩ | ⟨s, m, e, positive, u, rfl⟩ := h.cases
  · obtain ⟨negative, read⟩ := ofBits_zero _ u
    change Number.compareReading (.ofBits x.toModel.toBits.toBitVec.toNat) i = _
    rw [read, Number.compareReading, compare_scaled one_pos (q := 0) (r := i)]
    · simp
    · simp
  · obtain ⟨-, -, negative, narrow, read, sign⟩ := ofBits_finite _ u
    change Number.compareReading (.ofBits x.toModel.toBits.toBitVec.toNat) i = _
    rw [read, Number.compareReading]
    dsimp only
    rw [sign]
    refine congrArg some (compare_scaled (pow_pos two_pos (-e).toNat) ?_ ?_)
    · have scale : (2 : ℚ) ^ e * 2 ^ (-e).toNat = 2 ^ e.toNat := by
        rw [← zpow_natCast, ← zpow_natCast, ← zpow_add₀ two_ne_zero]
        congr 1
        omega
      change ((s.apply m * 2 ^ e.toNat : ℤ) : ℚ) = _
      push_cast
      rw [cast_apply, ← signed_mul, ← signed_mul, mul_assoc, scale]
    · change ((i * 2 ^ (-e).toNat : ℤ) : ℚ) = _
      push_cast
      rfl

end Stencil.Number
