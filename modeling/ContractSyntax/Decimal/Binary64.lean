/-
**Double-precision numbers, and the one nearest to a ratio.**

A `Binary64` is its sixty-four bits, so equality is equality of bits. The bits below the sign, read
as one number, order the finite numbers by size; a finite magnitude is `significand * 2 ^ scale`
units, a unit being the least positive number, `2 ^ (-1074)`.

* `roundHalfEven_le`, `le_roundHalfEven`: rounding a quotient moves it by half a unit at most;
* `roundHalfEven_mul_right`: and leaves an exact quotient alone.
-/

namespace ContractSyntax

/-- The whole number nearest to a quotient, an exact half going to the even neighbour. -/
def roundHalfEven (dividend divisor : Nat) : Nat :=
  let quotient := dividend / divisor
  let rest := dividend % divisor
  if 2 * rest < divisor then quotient
  else if divisor < 2 * rest then quotient + 1
  else quotient + quotient % 2

theorem le_roundHalfEven (dividend divisor : Nat) :
    dividend / divisor ≤ roundHalfEven dividend divisor := by
  unfold roundHalfEven
  dsimp only
  split
  · exact Nat.le_refl _
  · split <;> omega

theorem roundHalfEven_le (dividend divisor : Nat) :
    roundHalfEven dividend divisor ≤ dividend / divisor + 1 := by
  unfold roundHalfEven
  dsimp only
  split
  · omega
  · split <;> omega

theorem roundHalfEven_mul_right (quotient : Nat) {divisor : Nat} (positive : 0 < divisor) :
    roundHalfEven (quotient * divisor) divisor = quotient := by
  simp [roundHalfEven, Nat.mul_div_cancel _ positive, positive]

/-- A double-precision number, by its bits. -/
structure Binary64 where
  bits : UInt64
  deriving DecidableEq, Inhabited

namespace Binary64

/-- The weight of the sign bit. -/
def signWeight : Nat := 0x8000000000000000

/-- The weight of the lowest bit of the exponent, and so the least significand that fills all its
bits. -/
def exponentWeight : Nat := 0x10000000000000

/-- The bits of positive infinity, which are also the least that no finite magnitude has. -/
def infinity : Nat := 0x7ff0000000000000

/-- Whether the sign bit is set. -/
def isNegative (number : Binary64) : Bool := signWeight ≤ number.bits.toNat

/-- The bits below the sign bit. -/
def magnitude (number : Binary64) : Nat := number.bits.toNat % signWeight

/-- Whether the number is neither infinite nor undefined. -/
def isFinite (number : Binary64) : Bool := number.magnitude < infinity

/-- Whether the bits name no number. -/
def isUndefined (number : Binary64) : Bool := infinity < number.magnitude

/-- The power of two by which the unit is multiplied. -/
def scale (number : Binary64) : Nat := number.magnitude / exponentWeight - 1

/-- How many scaled units a finite magnitude holds. -/
def significand (number : Binary64) : Nat := number.magnitude - number.scale * exponentWeight

/-- A finite magnitude counted in units of `2 ^ (-1074)`. -/
def units (number : Binary64) : Nat := number.significand <<< number.scale

/-- How many units make one. -/
@[irreducible] def unitsPerOne : Nat := 1 <<< 1074

/-- The number with the given magnitude bits and the sign bit clear. -/
def ofMagnitude (magnitude : Nat) : Binary64 := ⟨magnitude.toUInt64⟩

/-- The same magnitude with the sign bit as stated. -/
def withSign (negative : Bool) (number : Binary64) : Binary64 :=
  ofMagnitude (if negative then number.magnitude + signWeight else number.magnitude)

/-- The number nearest to a nonnegative ratio, a tie going to the even significand and too large a
ratio to infinity. -/
def ofRatio (dividend divisor : Nat) : Binary64 :=
  let dividend := dividend * unitsPerOne
  let whole := dividend / divisor
  let scale := if whole < 2 * exponentWeight then 0 else whole.log2 - 52
  let significand := roundHalfEven dividend (divisor <<< scale)
  ofMagnitude (min (scale * exponentWeight + significand) infinity)

example : ofRatio 1 1 = ⟨0x3ff0000000000000⟩ := by decide +kernel
example : ofRatio 1 10 = ⟨0x3fb999999999999a⟩ := by decide +kernel
example : ofRatio (2 ^ 1024) 1 = ⟨0x7ff0000000000000⟩ := by decide +kernel
example : ofRatio 3 (2 ^ 1075) = ⟨2⟩ := by decide +kernel

end Binary64

end ContractSyntax
