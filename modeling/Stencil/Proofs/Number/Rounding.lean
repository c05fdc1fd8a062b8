import Stencil.Proofs.Number.Value

/-!
Rounding to doubles. A mantissa with its residual bits brackets a number (`Brackets`), shifting keeps that,
and the mantissa is rounded to one of the two whole numbers around. So rounding keeps to its side of every
whole number up to the limit (`Keeps`): such a number is a double itself, and what lies above it is not
rounded below it (`rounds_roundWithAccuracy`). A result that is not too large is stored as it is
(`Rounds.holds_or`).
-/

namespace Stencil.Number

open Float.Model Float.Model.UnpackedFloat

/-- One number lies on the same side as another of every whole number up to the limit. -/
def Keeps (q r : ℚ) : Prop :=
  ∀ k : ℤ, |k| ≤ limit → ((k : ℚ) ≤ q → (k : ℚ) ≤ r) ∧ (q ≤ k → r ≤ k)

variable {m n d : Nat} {e t : Int} {s : Sign} {q r : ℚ}

section sides

theorem Keeps.eq {k : ℤ} (h : Keeps k r) (bound : |k| ≤ limit) : r = k :=
  le_antisymm ((h k bound).2 le_rfl) ((h k bound).1 le_rfl)

theorem keeps_refl (q : ℚ) : Keeps q q := fun _ _ => ⟨id, id⟩

theorem Keeps.trans {u : ℚ} (h : Keeps q r) (h' : Keeps r u) : Keeps q u := fun k bound =>
  ⟨fun le => (h' k bound).1 ((h k bound).1 le), fun le => (h' k bound).2 ((h k bound).2 le)⟩

theorem Keeps.neg (h : Keeps q r) : Keeps (-q) (-r) := by
  intro k bound
  have mirrored := h (-k) (by rwa [abs_neg])
  push_cast at mirrored
  exact ⟨fun below => le_neg.1 (mirrored.2 (le_neg.1 below)),
    fun above => neg_le.1 (mirrored.1 (neg_le.1 above))⟩

theorem Keeps.signed (h : Keeps q r) (s : Sign) : Keeps (signed s q) (signed s r) := by
  cases s with
  | negative => exact h.neg
  | positive => exact h

theorem Keeps.within (h : Keeps q r) (bound : |q| ≤ limit) : |r| ≤ limit := by
  obtain ⟨low, high⟩ := abs_le.1 bound
  have least := (h (-(limit : ℤ)) (by simp)).1 (by push_cast; exact low)
  have greatest := (h (limit : ℤ) (by simp)).2 (by push_cast; exact high)
  push_cast at least greatest
  exact abs_le.2 ⟨least, greatest⟩

theorem Keeps.beyond (h : Keeps q r) (bound : (limit : ℚ) ≤ |q|) : (limit : ℚ) ≤ |r| := by
  rw [le_abs] at bound ⊢
  obtain above | below := bound
  · have kept := (h limit (by simp)).1 (by push_cast; exact above)
    push_cast at kept
    exact .inl kept
  · have kept := (h (-(limit : ℤ)) (by simp)).2 (by push_cast; exact le_neg.1 below)
    push_cast at kept
    exact .inr (le_neg.1 kept)

end sides

section brackets

/-- A mantissa lies less than one unit below a number, and is the number if no residual bit is set. -/
structure Brackets (em : ExtendedMantissa) (q : ℚ) : Prop where
  le : (em.mantissa : ℚ) ≤ q
  lt : q < em.mantissa + 1
  exact_iff : q = em.mantissa ↔ em.roundBit = false ∧ em.stickyBit = false

variable {em : ExtendedMantissa}

theorem brackets_exact (m : Nat) : Brackets (.ofMantissaAndAccuracy m .exact) m :=
  ⟨le_rfl, lt_add_one _, by simp [ExtendedMantissa.ofMantissaAndAccuracy]⟩

theorem mantissa_ofMantissaAndAccuracy (m : Nat) (a : Accuracy) :
    (ExtendedMantissa.ofMantissaAndAccuracy m a).mantissa = m := by
  obtain _ | order := a
  · rfl
  · cases order <;> rfl

theorem brackets_fraction (n : Nat) (positive : 0 < d) :
    Brackets (.ofMantissaAndAccuracy (n / d) (accuracyOfFraction (n % d) d)) (n / d : ℚ) := by
  have unit : (0 : ℚ) < d := by exact_mod_cast positive
  have split : (n : ℚ) = d * (n / d : Nat) + (n % d : Nat) := by exact_mod_cast (Nat.div_add_mod n d).symm
  have rest : ((n % d : Nat) : ℚ) < d := by exact_mod_cast Nat.mod_lt n positive
  refine ⟨?_, ?_, ?_⟩
  · rw [mantissa_ofMantissaAndAccuracy, le_div_iff₀ unit, split]
    have : (0 : ℚ) ≤ (n % d : Nat) := by positivity
    linarith
  · rw [mantissa_ofMantissaAndAccuracy, div_lt_iff₀ unit, split]
    linarith
  · rw [mantissa_ofMantissaAndAccuracy, div_eq_iff unit.ne', accuracyOfFraction]
    have whole : (n : ℚ) = (n / d : Nat) * d ↔ n % d = 0 := by
      rw [split, mul_comm, add_eq_left]
      exact Nat.cast_eq_zero
    rw [whole]
    split
    · simpa [ExtendedMantissa.ofMantissaAndAccuracy]
    · cases compare (2 * (n % d)) d <;> simpa [ExtendedMantissa.ofMantissaAndAccuracy]

theorem Brackets.half (h : Brackets em q) : Brackets em.shiftRightOne (q / 2) := by
  have halved : (em.mantissa : ℚ) = 2 * (em.mantissa / 2 : Nat) + (em.mantissa % 2 : Nat) := by
    exact_mod_cast (Nat.div_add_mod em.mantissa 2).symm
  have bit : ((em.mantissa % 2 : Nat) : ℚ) ≤ 1 := by
    exact_mod_cast Nat.le_of_lt_succ (Nat.mod_lt em.mantissa two_pos)
  have low := h.le
  have high := h.lt
  have sign : (0 : ℚ) ≤ (em.mantissa % 2 : Nat) := by positivity
  refine ⟨?_, ?_, ?_⟩
  · change ((em.mantissa / 2 : Nat) : ℚ) ≤ q / 2
    linarith
  · change q / 2 < ((em.mantissa / 2 : Nat) : ℚ) + 1
    linarith
  · change q / 2 = ((em.mantissa / 2 : Nat) : ℚ) ↔ _
    have even : q / 2 = ((em.mantissa / 2 : Nat) : ℚ) ↔ q = em.mantissa ∧ em.mantissa % 2 = 0 := by
      constructor
      · intro same
        have none : ((em.mantissa % 2 : Nat) : ℚ) = 0 := by linarith
        exact ⟨by linarith, by exact_mod_cast none⟩
      · rintro ⟨same, none⟩
        rw [none] at halved
        push_cast at halved
        linarith
    rw [even, h.exact_iff]
    simp only [ExtendedMantissa.shiftRightOne, Bool.or_eq_false_iff, bne_eq_false_iff_eq]
    tauto

theorem shiftRight_succ (em : ExtendedMantissa) (k : Nat) : em >>> (k + 1) = (em >>> k).shiftRightOne := rfl

theorem Brackets.shift (h : Brackets em q) (k : Nat) : Brackets (em >>> k) (q / 2 ^ k) := by
  induction k with
  | zero =>
    rw [pow_zero, div_one]
    exact h
  | succ k ih =>
    rw [shiftRight_succ, pow_succ, ← div_div]
    exact ih.half

theorem mantissa_shift (em : ExtendedMantissa) (k : Nat) : (em >>> k).mantissa = em.mantissa / 2 ^ k := by
  induction k with
  | zero =>
    rw [pow_zero, Nat.div_one]
    rfl
  | succ k ih =>
    rw [shiftRight_succ, pow_succ, ← Nat.div_div_eq_div_mul, ← ih]
    rfl

theorem le_roundedMantissa (em : ExtendedMantissa) : em.mantissa ≤ em.roundedMantissa := by
  obtain ⟨m, _ | _, _ | _⟩ := em <;>
    simp [ExtendedMantissa.roundedMantissa, ExtendedMantissa.accuracy, Accuracy.roundToNearestEven]

theorem roundedMantissa_le (em : ExtendedMantissa) : em.roundedMantissa ≤ em.mantissa + 1 := by
  obtain ⟨m, _ | _, _ | _⟩ := em <;>
    simp only [ExtendedMantissa.roundedMantissa, ExtendedMantissa.accuracy, Accuracy.roundToNearestEven] <;>
    omega

theorem Brackets.below (h : Brackets em q) {j : ℤ} (le : (j : ℚ) ≤ q) : j ≤ em.roundedMantissa := by
  have close : (j : ℚ) < ((em.mantissa + 1 : ℤ) : ℚ) := by
    push_cast
    exact lt_of_le_of_lt le h.lt
  have up := le_roundedMantissa em
  have next : j < em.mantissa + 1 := by exact_mod_cast close
  omega

theorem Brackets.above (h : Brackets em q) {j : ℤ} (le : q ≤ j) : (em.roundedMantissa : ℤ) ≤ j := by
  have least : ((em.mantissa : ℤ) : ℚ) ≤ j := by
    push_cast
    exact h.le.trans le
  have floor : (em.mantissa : ℤ) ≤ j := by exact_mod_cast least
  obtain same | other := eq_or_ne q em.mantissa
  · obtain ⟨m, round, sticky⟩ := em
    obtain ⟨rfl, rfl⟩ := h.exact_iff.1 same
    exact floor
  · have strict : ((em.mantissa : ℤ) : ℚ) < j := by
      push_cast
      exact (lt_of_le_of_ne h.le (Ne.symm other)).trans_le le
    have next : (em.mantissa : ℤ) < j := by exact_mod_cast strict
    have down := roundedMantissa_le em
    omega

end brackets

section rounding

inductive Rounds (q : ℚ) : UnpackedFloat → Prop
  | zero (s : Sign) (keeps : Keeps q 0) : Rounds q (.zero s)
  | finite (s : Sign) (m : Nat) (e : Int) (positive : 0 < m) (fits : Fits m e)
      (keeps : Keeps q (signed s (m * 2 ^ e))) : Rounds q (.finite s m e positive)

theorem targetExponent_eq (m : Nat) (e : Int) :
    Format.binary64.targetExponent (totalExponent m e) = max (m.log2 + e - 52) (-1074) := by
  have least : Format.binary64.minExponent = -1074 := rfl
  have bits : Format.binary64.mantissaBits = 53 := rfl
  rw [totalExponent, Format.targetExponent, least, bits]
  congr 1
  omega

theorem shiftToTargetExponent_eq (m : Nat) (e : Int) (a : Accuracy) (small : e ≤ t)
    (target : Format.binary64.targetExponent (totalExponent m e) = t) :
    shiftToTargetExponent Format.binary64 m e a =
      (ExtendedMantissa.ofMantissaAndAccuracy m a >>> (t - e).toNat, t) := by
  rw [shiftToTargetExponent, target, shiftToExponent]
  congr 1
  omega

theorem log2_lt_of_lt (small : n < limit) : n.log2 < 53 := by
  obtain rfl | h := eq_or_ne n 0
  · decide
  · exact Nat.lt_succ_of_le (log2_le h small)

/-- After the first shift the mantissa has room, and it is full unless the exponent is the least one. -/
theorem fits_shifted (wide : e ≤ t) (target : max (m.log2 + e - 52 : Int) (-1074) = t) :
    Fits (m / 2 ^ (t - e).toNat) t := by
  refine ⟨?_, by omega, ?_⟩
  · have high : m < 2 ^ (m.log2 + 1) := Nat.lt_log2_self
    have room : m.log2 + 1 ≤ 53 + (t - e).toNat := by omega
    rw [Nat.div_lt_iff_lt_mul (Nat.two_pow_pos _), ← pow_add]
    exact high.trans_le (Nat.pow_le_pow_right two_pos room)
  · obtain last | above := eq_or_lt_of_le (show -1074 ≤ t by omega)
    · exact .inr last.symm
    · left
      have amount : 52 + (t - e).toNat = m.log2 := by omega
      have filled : m ≠ 0 := by
        rintro rfl
        simp at amount
      rw [Nat.le_div_iff_mul_le (Nat.two_pow_pos _), ← pow_add, amount]
      exact Nat.log2_self_le filled

theorem roundWithAccuracy_settled (s : Sign) (wide : e ≤ t) (a : Accuracy)
    (target : Format.binary64.targetExponent (totalExponent m e) = t) (least : -1074 ≤ t)
    (rounded : (ExtendedMantissa.ofMantissaAndAccuracy m a >>> (t - e).toNat).roundedMantissa = n)
    (bound : n ≤ limit) :
    (n = 0 ∧ roundWithAccuracy Format.binary64 s m e a = .zero s) ∨
    (∃ h : 0 < n, n < limit ∧ roundWithAccuracy Format.binary64 s m e a = .finite s n t h) ∨
    (∃ h, n = limit ∧ roundWithAccuracy Format.binary64 s m e a = .finite s (2 ^ 52) (t + 1) h) := by
  rw [roundWithAccuracy, shiftToTargetExponent_eq m e a wide target]
  dsimp only
  rw [rounded]
  obtain rfl | small := Nat.eq_or_lt_of_le bound
  · have next : Format.binary64.targetExponent (totalExponent limit t) = t + 1 := by
      rw [targetExponent_eq, limit, Nat.log2_two_pow]
      omega
    have one : (t + 1 - t).toNat = 1 := by omega
    rw [shiftToTargetExponent_eq limit t .exact (by omega) next, one]
    exact .inr (.inr ⟨Nat.two_pow_pos _, rfl, rfl⟩)
  · have log := log2_lt_of_lt small
    have stays : (Format.binary64.targetExponent (totalExponent n t) - t).toNat = 0 := by
      rw [targetExponent_eq]
      omega
    have settled : shiftToTargetExponent Format.binary64 n t .exact = (⟨n, false, false⟩, t) := by
      rw [shiftToTargetExponent, shiftToExponent, stays]
      simp [ExtendedMantissa.ofMantissaAndAccuracy, HShiftRight.hShiftRight, Nat.repeat]
    rw [settled]
    dsimp only
    obtain rfl | filled := Nat.eq_zero_or_pos n
    · exact .inl ⟨rfl, dif_pos rfl⟩
    · exact .inr (.inl ⟨filled, small, dif_neg (Nat.ne_of_gt filled)⟩)

theorem keeps_of_brackets {em : ExtendedMantissa} (h : Brackets em (q / 2 ^ t)) (fits : Fits em.mantissa t) :
    Keeps q (em.roundedMantissa * 2 ^ t) := by
  have unit := two_zpow_pos t
  -- a number on the grid keeps its side, as the mantissa does
  have grid : ∀ j : ℤ, ((j : ℚ) * 2 ^ t ≤ q → (j : ℚ) * 2 ^ t ≤ em.roundedMantissa * 2 ^ t) ∧
      (q ≤ j * 2 ^ t → (em.roundedMantissa : ℚ) * 2 ^ t ≤ j * 2 ^ t) := by
    refine fun j => ⟨fun below => ?_, fun above => ?_⟩
    · have scaled : (j : ℤ) ≤ em.roundedMantissa := h.below ((le_div_iff₀ unit).2 below)
      exact mul_le_mul_of_nonneg_right (by exact_mod_cast scaled) unit.le
    · have scaled : (em.roundedMantissa : ℤ) ≤ j := h.above ((div_le_iff₀ unit).2 above)
      exact mul_le_mul_of_nonneg_right (by exact_mod_cast scaled) unit.le
  intro k bound
  obtain fine | coarse := le_or_gt t 0
  · have lifted : (k : ℚ) = ((k * 2 ^ (-t).toNat : ℤ) : ℚ) * 2 ^ t := by
      have cancel := zpow_eq_pow_mul fine
      rw [zpow_zero, zero_sub] at cancel
      push_cast
      rw [mul_assoc, ← cancel, mul_one]
    rw [lifted]
    exact grid _
  · have filled : 2 ^ 52 ≤ em.mantissa := fits.full.resolve_right (by omega)
    have least : ((2 ^ 52 : ℤ) : ℚ) ≤ q / 2 ^ t := by
      refine le_trans ?_ h.le
      exact_mod_cast filled
    have base : ((2 ^ 52 : ℤ) : ℚ) * 2 ^ t ≤ q := (le_div_iff₀ unit).1 least
    have two : (2 : ℚ) ≤ 2 ^ t := by
      have step := zpow_le_zpow_right₀ (one_le_two : (1 : ℚ) ≤ 2) (show (1 : ℤ) ≤ t from coarse)
      rwa [zpow_one] at step
    have top : (k : ℚ) ≤ ((2 ^ 52 : ℤ) : ℚ) * 2 ^ t := by
      have room : (k : ℚ) ≤ (limit : ℤ) := by exact_mod_cast (abs_le.1 bound).2
      push_cast [limit] at room ⊢
      linarith
    refine ⟨fun _ => top.trans ((grid _).1 base), fun above => ?_⟩
    have same : (k : ℚ) = ((2 ^ 52 : ℤ) : ℚ) * 2 ^ t := le_antisymm top (base.trans above)
    rw [same] at above ⊢
    exact (grid _).2 above

theorem rounds_roundWithAccuracy (s : Sign) {a : Accuracy}
    (sound : Brackets (.ofMantissaAndAccuracy m a) (q / 2 ^ e))
    (wide : e ≤ Format.binary64.targetExponent (totalExponent m e)) :
    Rounds (signed s q) (roundWithAccuracy Format.binary64 s m e a) := by
  obtain ⟨t, target⟩ : ∃ t, Format.binary64.targetExponent (totalExponent m e) = t := ⟨_, rfl⟩
  rw [target] at wide
  have bits := target
  rw [targetExponent_eq] at bits
  obtain ⟨em, shifted⟩ : ∃ em, ExtendedMantissa.ofMantissaAndAccuracy m a >>> (t - e).toNat = em :=
    ⟨_, rfl⟩
  have brackets : Brackets em (q / 2 ^ t) := by
    have moved := sound.shift (t - e).toNat
    rwa [shifted, div_div, mul_comm, ← zpow_eq_pow_mul wide] at moved
  have fits : Fits em.mantissa t := by
    rw [← shifted, mantissa_shift, mantissa_ofMantissaAndAccuracy]
    exact fits_shifted wide bits
  have keeps := (keeps_of_brackets brackets fits).signed s
  have up := le_roundedMantissa em
  have bound : em.roundedMantissa ≤ limit := (roundedMantissa_le em).trans fits.mantissa
  obtain ⟨none, result⟩ | ⟨filled, small, result⟩ | ⟨filled, last, result⟩ :=
    roundWithAccuracy_settled s wide a target fits.least (by rw [shifted]) bound
  · rw [result]
    refine .zero s ?_
    rw [none] at keeps
    cases s <;> simpa [signed] using keeps
  · rw [result]
    exact .finite s _ t filled ⟨small, fits.least, fits.full.imp_left fun full => full.trans up⟩ keeps
  · rw [result]
    refine .finite s _ (t + 1) filled ⟨by decide, by have := fits.least; omega, .inl le_rfl⟩ ?_
    have same : ((2 ^ 52 : Nat) : ℚ) * 2 ^ (t + 1) = (limit : Nat) * 2 ^ t := by
      rw [zpow_add₀ two_ne_zero, zpow_one, limit]
      push_cast
      ring
    rw [same, ← last]
    exact keeps

end rounding

section results

variable {f : UnpackedFloat} {x y : Float} {a b : ℚ}

theorem holds_pack (s : Sign) (positive : 0 < m) (fits : Fits m e) (small : e ≤ 971) :
    Holds (.ofModel (.pack (.finite s m e positive))) (signed s (m * 2 ^ e)) := by
  change rational? (UnpackedFloat.unpack Format.binary64
    (UnpackedFloat.pack Format.binary64 (.finite s m e positive))) = _
  rw [unpack_pack s positive fits small]
  rfl

theorem holds_pack_zero (s : Sign) : Holds (.ofModel (.pack (.zero s))) 0 := by
  change rational? (UnpackedFloat.unpack Format.binary64 (UnpackedFloat.pack Format.binary64 (.zero s))) = _
  rw [unpack_pack_zero]
  rfl

theorem abs_signed (s : Sign) (q : ℚ) : |signed s q| = |q| := by
  cases s
  · exact abs_neg q
  · rfl

theorem Rounds.holds_or (h : Rounds q f) :
    (∃ r, Holds (.ofModel (.pack f)) r ∧ Keeps q r) ∨
    ((limit : ℚ) < |q| ∧ (Float.ofModel (.pack f)).isInf = true) := by
  cases h with
  | zero s keeps => exact .inl ⟨0, holds_pack_zero s, keeps⟩
  | finite s m e positive fits keeps =>
    obtain small | large := le_or_gt e 971
    · exact .inl ⟨_, holds_pack s positive fits small, keeps⟩
    · refine .inr ⟨lt_of_not_ge fun bound => ?_, ?_⟩
      · -- a full mantissa this far up lies beyond the limit
        have filled : 2 ^ 52 ≤ m := fits.full.resolve_right (by omega)
        have within := keeps.within bound
        rw [abs_signed, abs_of_nonneg (mul_nonneg m.cast_nonneg (two_zpow_pos e).le)] at within
        have four : (4 : ℚ) ≤ 2 ^ e := by
          have step := zpow_le_zpow_right₀ (one_le_two : (1 : ℚ) ≤ 2) (show (2 : ℤ) ≤ e by omega)
          norm_num at step
          exact step
        have full : (2 ^ 52 : ℚ) ≤ m := by exact_mod_cast filled
        have product : (2 ^ 52 : ℚ) * 4 ≤ m * 2 ^ e :=
          mul_le_mul full four (by norm_num) (by positivity)
        have far : (2 ^ 52 : ℚ) * 4 ≤ (limit : ℕ) := product.trans within
        norm_num [limit] at far
      · change (UnpackedFloat.unpack Format.binary64
          (UnpackedFloat.pack Format.binary64 (.finite s m e positive))).isInf = true
        rw [unpack_pack_large s positive large]
        rfl

theorem Rounds.holds (h : Rounds q f) (bound : |q| ≤ limit) :
    ∃ r, Holds (.ofModel (.pack f)) r ∧ Keeps q r :=
  h.holds_or.resolve_right fun beyond => absurd bound (not_le_of_gt beyond.1)

theorem rounds_round (s : Sign) (h : 0 < m) (e : Int) :
    Rounds (signed s (m * 2 ^ e)) (UnpackedFloat.round Format.binary64 s m e) := by
  rw [UnpackedFloat.round, decreaseExponent]
  dsimp only
  obtain ⟨t, target⟩ : ∃ t, Format.binary64.targetExponent (totalExponent m e) = t := ⟨_, rfl⟩
  rw [target, Nat.shiftLeft_eq]
  have filled : m ≠ 0 := Nat.ne_of_gt h
  refine rounds_roundWithAccuracy s ?_ ?_
  · have exact : (m : ℚ) * 2 ^ e / 2 ^ (e - ((e - t).toNat : Int)) =
        ((m * 2 ^ (e - t).toNat : Nat) : ℚ) := by
      rw [div_eq_iff (two_zpow_pos _).ne', zpow_eq_pow_mul (show e - ((e - t).toNat : Int) ≤ e by omega)]
      push_cast
      have amount : (e - (e - ((e - t).toNat : Int))).toNat = (e - t).toNat := by omega
      rw [amount, mul_assoc]
    rw [exact]
    exact brackets_exact _
  · rw [targetExponent_eq] at target ⊢
    rw [log2_mul_two_pow filled]
    omega

theorem rounds_normalize (m e : Int) (zero : Sign) :
    Rounds (m * 2 ^ e) (UnpackedFloat.normalize Format.binary64 m e zero) := by
  rw [UnpackedFloat.normalize]
  obtain negative | rfl | positive := lt_trichotomy m 0
  · rw [Int.compare_eq_lt.2 negative]
    have opposite := rounds_round .negative (show 0 < (-m).toNat by omega) e
    have value : ((-m).toNat : ℚ) = -m := by
      have cast : ((-m).toNat : ℤ) = -m := by omega
      exact_mod_cast congrArg (Int.cast (R := ℚ)) cast
    rw [value, signed, neg_mul, neg_neg] at opposite
    exact opposite
  · rw [Int.compare_eq_eq.2 rfl, Int.cast_zero, zero_mul]
    exact .zero zero (keeps_refl 0)
  · rw [Int.compare_eq_gt.2 positive]
    have same := rounds_round .positive (show 0 < m.toNat by omega) e
    have value : (m.toNat : ℚ) = m := by
      have cast : (m.toNat : ℤ) = m := by omega
      exact_mod_cast congrArg (Int.cast (R := ℚ)) cast
    rw [value, signed] at same
    exact same

end results

end Stencil.Number
