import Stencil.Proofs.Number.Arithmetic

/-!
Whole doubles. A natural number below two to the fifty-third is a double exactly: its mantissa moved up
until it is full is the only one that fits (`Rounds.eq_whole`). So sums that stay below are exact
(`ofNat_add`). Such a double compares with an integer as the number does (`compareReading_ofNat`). Counting
one by one is exact up to the limit and stands still there (`add_one_ofNat`).
-/

namespace Stencil.Number

open Float.Model Float.Model.UnpackedFloat

def gap (n : Nat) : Nat := 52 - n.log2

def whole (n : Nat) : UnpackedFloat :=
  if h : n = 0 then .zero .positive
  else .finite .positive (n * 2 ^ gap n) (-(gap n : Int))
    (Nat.mul_pos (Nat.pos_of_ne_zero h) (Nat.two_pow_pos _))

variable {a b n : Nat}

theorem whole_of_ne_zero (h : n ≠ 0) :
    whole n = .finite .positive (n * 2 ^ gap n) (-(gap n : Int))
      (Nat.mul_pos (Nat.pos_of_ne_zero h) (Nat.two_pow_pos _)) := dif_neg h

theorem fits_whole (h : n ≠ 0) (small : n < limit) : Fits (n * 2 ^ gap n) (-(gap n : Int)) := by
  have bound := log2_le h small
  have full : (n * 2 ^ gap n).log2 = 52 := by
    rw [log2_mul_two_pow h, gap]
    omega
  obtain ⟨low, high⟩ := (Nat.log2_eq_iff (Nat.mul_ne_zero h (Nat.ne_of_gt (Nat.two_pow_pos _)))).1 full
  have near : gap n ≤ 52 := Nat.sub_le _ _
  exact ⟨high, by omega, .inl low⟩

theorem value_whole (n : Nat) : ((n * 2 ^ gap n : Nat) : ℚ) * 2 ^ (-(gap n : Int)) = n := by
  rw [zpow_neg, zpow_natCast, Nat.cast_mul, Nat.cast_pow, Nat.cast_ofNat, mul_assoc,
    mul_inv_cancel₀ (pow_ne_zero _ two_ne_zero), mul_one]

theorem Rounds.eq_whole {f : UnpackedFloat} (h : Rounds n f) (filled : n ≠ 0) (small : n < limit) :
    f = whole n := by
  have within : |(n : Int)| ≤ limit := by
    rw [Nat.abs_cast]
    exact_mod_cast small.le
  have positive : (0 : ℚ) < n := by exact_mod_cast Nat.pos_of_ne_zero filled
  cases h with
  | zero s keeps =>
    have none := Keeps.eq (k := n) keeps within
    rw [Int.cast_natCast] at none
    exact absurd none positive.ne
  | finite s m e _ fits keeps =>
    have value := Keeps.eq (k := n) keeps within
    rw [Int.cast_natCast] at value
    cases s with
    | negative =>
      have nonneg : (0 : ℚ) ≤ m * 2 ^ e := mul_nonneg m.cast_nonneg (two_zpow_pos e).le
      rw [signed] at value
      linarith
    | positive =>
      obtain ⟨rfl, rfl⟩ := fits.unique (fits_whole filled small) (value.trans (value_whole n).symm)
      exact (whole_of_ne_zero filled).symm

theorem mul_whole_one (small : n < limit) :
    UnpackedFloat.mul Format.binary64 (whole n) (whole 1) = whole n := by
  have one : whole 1 = .finite .positive (2 ^ 52) (-52) (Nat.two_pow_pos _) := rfl
  obtain rfl | h := Nat.eq_zero_or_pos n
  · rfl
  · have filled := Nat.ne_of_gt h
    have mantissa : n * 2 ^ gap n ≠ 0 := Nat.mul_ne_zero filled (Nat.ne_of_gt (Nat.two_pow_pos _))
    rw [one, whole_of_ne_zero filled, UnpackedFloat.mul, ← whole_of_ne_zero filled]
    refine Rounds.eq_whole (rounds_roundWithAccuracy .positive (q := n) ?_ ?_) filled small
    · have exact : (n : ℚ) / 2 ^ (-(gap n : Int) + -52) = ((n * 2 ^ gap n * 2 ^ 52 : Nat) : ℚ) := by
        rw [div_eq_iff (two_zpow_pos _).ne', zpow_add₀ two_ne_zero, Nat.cast_mul, mul_mul_mul_comm,
          value_whole]
        norm_num
      rw [exact]
      exact brackets_exact _
    · rw [targetExponent_eq, log2_mul_two_pow mantissa]
      omega

theorem ofNat_whole (small : n < limit) : UnpackedFloat.ofNat Format.binary64 n = whole n := by
  obtain rfl | h := eq_or_ne n 0
  · rfl
  · have rounds := rounds_normalize n 0 .positive
    rw [zpow_zero, mul_one, Int.cast_natCast] at rounds
    exact rounds.eq_whole h small

theorem unpack_pack_whole (small : n < limit) :
    UnpackedFloat.unpack Format.binary64 (UnpackedFloat.pack Format.binary64 (whole n)) = whole n := by
  obtain rfl | h := eq_or_ne n 0
  · rfl
  · rw [whole_of_ne_zero h]
    exact unpack_pack _ _ (fits_whole h small) (by omega)

theorem ofNat_eq (small : n < limit) :
    Float.ofNat n = .ofModel (Float.Model.pack (whole n)) := by
  have word : n.toUInt64.toNat = n := by
    have room : n < 2 ^ 64 := Nat.lt_trans small (by decide)
    exact UInt64.toNat_ofNat_of_lt room
  have one : (Float.ofBits 0x3FF0000000000000).toModel.unpack = whole 1 := rfl
  have here : n < 2 ^ 53 ∧ 0 ≤ 22 := ⟨small, by decide⟩
  change Float.ofScientific n false 0 = _
  rw [Float.ofScientific, dif_pos here]
  change Float.ofModel (Float.Model.pack (UnpackedFloat.mul Format.binary64
    (UnpackedFloat.unpack Format.binary64 (UnpackedFloat.pack Format.binary64
      (UnpackedFloat.ofNat Format.binary64 n.toUInt64.toNat)))
    (Float.ofBits 0x3FF0000000000000).toModel.unpack)) = _
  rw [one, word, ofNat_whole small, unpack_pack_whole small, mul_whole_one small]

theorem holds_ofNat (small : n < limit) : Holds (Float.ofNat n) n := by
  rw [Holds, ofNat_eq small]
  change rational? (UnpackedFloat.unpack Format.binary64 (UnpackedFloat.pack Format.binary64 (whole n))) = _
  rw [unpack_pack_whole small]
  obtain rfl | h := eq_or_ne n 0
  · rfl
  · rw [whole_of_ne_zero h, rational?, signed, value_whole]

theorem ofNat_add (small : a + b < limit) : Float.ofNat a + Float.ofNat b = Float.ofNat (a + b) := by
  have first : a < limit := Nat.lt_of_le_of_lt (Nat.le_add_right a b) small
  have second : b < limit := Nat.lt_of_le_of_lt (Nat.le_add_left b a) small
  obtain none | filled := eq_or_ne (a + b) 0
  · obtain ⟨rfl, rfl⟩ := Nat.add_eq_zero_iff.1 none
    rfl
  · have sum := (holds_ofNat first).rounds_add (holds_ofNat second)
    rw [← Nat.cast_add] at sum
    rw [ofNat_eq small]
    exact congrArg (fun f => Float.ofModel (.pack f)) (sum.eq_whole filled small)

theorem floatOfInt_ofNat (small : n < limit) : floatOfInt n = .ok (Float.ofNat n) := by
  have same : Float.ofInt n = Float.ofNat n := rfl
  rw [floatOfInt, same, (holds_ofNat small).isInf]
  rfl

theorem compareReading_ofNat (small : n < limit) (i : Int) :
    compareReading (.ofFloat (Float.ofNat n)) i = some (compare (n : Int) i) := by
  rw [(holds_ofNat small).compareReading, compare_scaled one_pos (mul_one _).symm (mul_one _).symm,
    Int.cast_natCast]

theorem add_ofNat (small : a + b < limit) :
    add (.float (Float.ofNat a)) (.int b) = .ok (.float (Float.ofNat (a + b))) := by
  have second : b < limit := Nat.lt_of_le_of_lt (Nat.le_add_left b a) small
  have right : toFloat (.int b) = .ok (Float.ofNat b) := floatOfInt_ofNat second
  change (do
    let x ← toFloat (.float (Float.ofNat a))
    let y ← toFloat (.int b)
    (Except.ok (float (x + y)) : Result Number)) = _
  rw [right, ← ofNat_add small]
  rfl

/-- Counting on stops at the limit: the double after it is two steps away, and the sum goes back. -/
theorem add_one_ofNat (bound : n ≤ limit) :
    add (.float (Float.ofNat n)) (.int 1) = .ok (.float (Float.ofNat (min (n + 1) limit))) := by
  obtain small | last | full : n + 1 < limit ∨ n = limit - 1 ∨ n = limit := by omega
  · rw [Nat.min_eq_left (Nat.le_of_lt small)]
    exact add_ofNat small
  · rw [last]
    rfl
  · rw [full]
    rfl

theorem compareReading_limit (i : Int) :
    compareReading (.ofFloat (Float.ofNat limit)) i = some (compare (limit : Int) i) := by
  have read : Decimal.Reading.ofFloat (Float.ofNat limit) = .finite false ⟨2 ^ 52, 1, true⟩ := rfl
  have unit : i * Int.pow 2 (-1 : Int).toNat = i := Int.mul_one i
  rw [read, compareReading]
  dsimp only
  rw [unit]
  rfl

theorem eq_ofNat_iff (bound : n ≤ limit) {i : Int} :
    eq (.float (Float.ofNat n)) (.int i) = true ↔ (n : Int) = i := by
  have compared : compareReading (.ofFloat (Float.ofNat n)) i = some (compare (n : Int) i) := by
    obtain small | rfl := Nat.lt_or_eq_of_le bound
    · exact compareReading_ofNat small i
    · exact compareReading_limit i
  rw [eq, compare?, compared, ← Int.compare_eq_eq]
  cases compare (n : Int) i <;> simp

end Stencil.Number
