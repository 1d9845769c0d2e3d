/-
**Rounding a ratio.**

The number nearest to a ratio depends on the ratio alone, and a ratio that is a number exactly is
rounded to that number. So every finite number is nearest to the decimal it is written as.

* `ofRatio_mul_right`: multiplying both parts by the same factor changes nothing;
* `ofRatio_units`: a number is nearest to its own value;
* `magnitude_ofDecimal_shortest`: the shortest decimal of a number is read as its magnitude.
-/

import ContractSyntax.Decimal.Shortest
import Mathlib.Algebra.Group.Nat.Defs

namespace ContractSyntax

theorem roundHalfEven_mul_mul_right (dividend divisor : Nat) {factor : Nat} (positive : 0 < factor) :
    roundHalfEven (dividend * factor) (divisor * factor) = roundHalfEven dividend divisor := by
  have less (first second : Nat) : first * factor < second * factor ↔ first < second :=
    Nat.mul_lt_mul_right positive
  unfold roundHalfEven
  simp only [Nat.mul_div_mul_right _ _ positive, Nat.mul_mod_mul_right, ← Nat.mul_assoc, less]

namespace Binary64

/-! ### Magnitudes -/

theorem magnitude_ofMagnitude {magnitude : Nat} (small : magnitude < signWeight) :
    (ofMagnitude magnitude).magnitude = magnitude := by
  have bounded : magnitude < 2 ^ 64 := Nat.lt_trans small (by decide)
  show magnitude.toUInt64.toNat % signWeight = magnitude
  rw [show magnitude.toUInt64.toNat = magnitude from Nat.mod_eq_of_lt bounded,
    Nat.mod_eq_of_lt small]

theorem isNegative_ofMagnitude {magnitude : Nat} (small : magnitude < signWeight) :
    (ofMagnitude magnitude).isNegative = false := by
  have bounded : magnitude < 2 ^ 64 := Nat.lt_trans small (by decide)
  have same : magnitude.toUInt64.toNat = magnitude := Nat.mod_eq_of_lt bounded
  simpa [isNegative, ofMagnitude, same] using small

theorem ofMagnitude_magnitude {number : Binary64} (positive : number.isNegative = false) :
    ofMagnitude number.magnitude = number := by
  have small : number.bits.toNat < signWeight := by simpa [isNegative] using positive
  unfold ofMagnitude magnitude
  rw [Nat.mod_eq_of_lt small]
  exact congrArg Binary64.mk UInt64.ofNat_toNat

theorem infinity_lt_signWeight : infinity < signWeight := by decide

theorem isNegative_ofRatio (dividend divisor : Nat) :
    (ofRatio dividend divisor).isNegative = false :=
  isNegative_ofMagnitude (Nat.lt_of_le_of_lt (Nat.min_le_right _ _) infinity_lt_signWeight)

/-! ### Ratios -/

/-- Multiplying both parts of a ratio by the same factor changes nothing. -/
theorem ofRatio_mul_right (dividend divisor : Nat) {factor : Nat} (positive : 0 < factor) :
    ofRatio (dividend * factor) (divisor * factor) = ofRatio dividend divisor := by
  have moved : dividend * factor * unitsPerOne = dividend * unitsPerOne * factor :=
    Nat.mul_right_comm _ _ _
  have shifted (scale : Nat) : (divisor * factor) <<< scale = (divisor <<< scale) * factor := by
    simp only [Nat.shiftLeft_eq, Nat.mul_right_comm]
  unfold ofRatio
  simp only [moved, shifted, Nat.mul_div_mul_right _ _ positive,
    roundHalfEven_mul_mul_right _ _ positive]

-- The exponent is kept a variable, so that the power is never evaluated.
theorem unitsPerOne_eq {power : Nat} (same : power = 1074) : unitsPerOne = 2 ^ power := by
  unfold unitsPerOne
  rw [← same, Nat.shiftLeft_eq, Nat.one_mul]

theorem unitsPerOne_pos : 0 < unitsPerOne := by
  obtain ⟨power, same⟩ : ∃ power, power = 1074 := ⟨_, rfl⟩
  rw [unitsPerOne_eq same]
  exact Nat.two_pow_pos power

theorem units_eq (number : Binary64) : number.units = number.significand * 2 ^ number.scale :=
  Nat.shiftLeft_eq _ _

/-- The bits of a magnitude are those of its scale and of its significand. -/
theorem scale_add_significand (number : Binary64) :
    number.scale * exponentWeight + number.significand = number.magnitude := by
  have below : number.scale * exponentWeight ≤ number.magnitude :=
    Nat.le_trans (Nat.mul_le_mul_right _ (Nat.sub_le _ 1)) (Nat.div_mul_le_self _ _)
  unfold significand
  omega

/-- The scale of a magnitude is found from its value. -/
theorem scale_eq (number : Binary64) :
    number.scale = if number.units < 2 * exponentWeight then 0 else number.units.log2 - 52 := by
  have sum := number.scale_add_significand
  have divided := Nat.div_add_mod number.magnitude exponentWeight
  have rest := Nat.mod_lt number.magnitude (show 0 < exponentWeight by decide)
  have scaled : number.scale = number.magnitude / exponentWeight - 1 := rfl
  rw [units_eq]
  generalize number.magnitude / exponentWeight = quotient at *
  generalize number.magnitude % exponentWeight = remainder at *
  rw [Nat.mul_comm] at divided
  cases scale : number.scale with
  | zero =>
    rw [scale] at sum scaled
    have : quotient * exponentWeight ≤ 1 * exponentWeight := Nat.mul_le_mul_right _ (by omega)
    rw [if_pos (by omega)]
  | succ below =>
    rw [scale] at sum scaled
    have exact : quotient = below + 2 := by omega
    subst exact
    have split : (below + 2) * exponentWeight = (below + 1) * exponentWeight + exponentWeight := by
      rw [← Nat.succ_mul]
    have lower : 2 ^ 52 ≤ number.significand := by
      show exponentWeight ≤ _
      omega
    have upper : number.significand < 2 ^ 53 := by
      show _ < 2 * exponentWeight
      omega
    have least : 2 ^ (52 + (below + 1)) ≤ number.significand * 2 ^ (below + 1) := by
      rw [Nat.pow_add]
      exact Nat.mul_le_mul_right _ lower
    have most : number.significand * 2 ^ (below + 1) < 2 ^ (52 + (below + 1) + 1) := by
      rw [show 52 + (below + 1) + 1 = 53 + (below + 1) by omega, Nat.pow_add 2 53]
      exact Nat.mul_lt_mul_of_pos_right upper (Nat.two_pow_pos _)
    have large : 2 * exponentWeight ≤ number.significand * 2 ^ (below + 1) :=
      Nat.le_trans (Nat.pow_le_pow_right Nat.two_pos (by omega : 53 ≤ 52 + (below + 1))) least
    have some : number.significand * 2 ^ (below + 1) ≠ 0 := by omega
    rw [if_neg (Nat.not_lt.mpr large), (Nat.log2_eq_iff some).mpr ⟨least, most⟩]
    omega

/-- A number is nearest to its own value. -/
theorem ofRatio_units {number : Binary64} (finite : number.isFinite = true) :
    ofRatio number.units unitsPerOne = ofMagnitude number.magnitude := by
  have bounded : number.magnitude < infinity := of_decide_eq_true finite
  unfold ofRatio
  dsimp only
  rw [Nat.mul_div_cancel _ unitsPerOne_pos, ← scale_eq]
  have scaled : number.units * unitsPerOne =
      number.significand * unitsPerOne <<< number.scale := by
    rw [units_eq, Nat.shiftLeft_eq, Nat.mul_assoc, Nat.mul_comm (2 ^ number.scale)]
  have positive : 0 < unitsPerOne <<< number.scale := by
    rw [Nat.shiftLeft_eq]
    exact Nat.mul_pos unitsPerOne_pos (Nat.two_pow_pos _)
  rw [scaled, roundHalfEven_mul_right _ positive, scale_add_significand,
    Nat.min_eq_left (Nat.le_of_lt bounded)]

/-! ### Decimals -/

theorem ofDecimal_ofNat (digits power : Nat) :
    ofDecimal ⟨digits, Int.ofNat power⟩ = ofRatio (digits * 10 ^ power) 1 := rfl

theorem ofDecimal_negSucc (digits power : Nat) :
    ofDecimal ⟨digits, Int.negSucc power⟩ = ofRatio digits (10 ^ (power + 1)) := rfl

/-- A final zero less does not change the value. -/
theorem ofDecimal_trim (decimal : Decimal) : ofDecimal decimal.trim = ofDecimal decimal := by
  obtain ⟨digits, exponent⟩ := decimal
  unfold Decimal.trim
  dsimp only
  split
  · next zero =>
    have shorter : digits / 10 * 10 = digits := Nat.div_mul_cancel (Nat.dvd_of_mod_eq_zero zero)
    match exponent with
    | .ofNat power =>
      rw [show Int.ofNat power + 1 = Int.ofNat (power + 1) from rfl, ofDecimal_ofNat,
        ofDecimal_ofNat, Nat.pow_succ', ← Nat.mul_assoc, shorter]
    | .negSucc 0 =>
      rw [show Int.negSucc 0 + 1 = Int.ofNat 0 from rfl, ofDecimal_ofNat, ofDecimal_negSucc,
        Nat.pow_zero, Nat.mul_one, ← ofRatio_mul_right _ _ (by decide : 0 < 10), shorter,
        Nat.pow_succ, Nat.pow_zero]
    | .negSucc (power + 1) =>
      rw [show Int.negSucc (power + 1) + 1 = Int.negSucc power from rfl, ofDecimal_negSucc,
        ofDecimal_negSucc, ← ofRatio_mul_right _ _ (by decide : 0 < 10), shorter, ← Nat.pow_succ]
  · rfl

/-- All digits of a magnitude are read as it. -/
theorem ofDecimal_exact {number : Binary64} (finite : number.isFinite = true) :
    ofDecimal number.exact = ofMagnitude number.magnitude := by
  obtain ⟨power, same⟩ : ∃ power, power + 1 = 1074 := ⟨1073, rfl⟩
  have parts : 10 ^ (power + 1) = unitsPerOne * 5 ^ (power + 1) := by
    rw [unitsPerOne_eq same]
    exact Nat.mul_pow 2 5 _
  have sign : (-1074 : Int) = Int.negSucc power := by omega
  have read : ofDecimal number.exact =
      ofRatio (number.units * 5 ^ (power + 1)) (10 ^ (power + 1)) := by
    rw [exact, sign, ← same, ofDecimal_negSucc]
    rfl
  rw [read, parts, ofRatio_mul_right _ _ (Nat.pow_pos (by decide)), ofRatio_units finite]

/-- The shortest decimal of a number is read as its magnitude. -/
theorem magnitude_ofDecimal_shortest (tie : Tie) {number : Binary64}
    (finite : number.isFinite = true) :
    (ofDecimal (number.shortest tie)).magnitude = number.magnitude := by
  have bounded : number.magnitude < infinity := of_decide_eq_true finite
  unfold shortest
  split
  · next zero =>
    rw [zero]
    decide +kernel
  · split
    · next decimal found =>
      obtain ⟨count, _, offered⟩ := List.exists_of_findSome?_eq_some found
      rw [ofDecimal_trim]
      exact beq_iff_eq.mp (readsBack_of_withDigits? offered)
    · rw [ofDecimal_exact finite]
      exact magnitude_ofMagnitude (Nat.lt_trans bounded infinity_lt_signWeight)

end Binary64

end ContractSyntax
