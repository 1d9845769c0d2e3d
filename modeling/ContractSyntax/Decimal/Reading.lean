/-
**The values of numeric literals.**

A literal is a run of digits, or two with a point between them. Its value is exact before it is put
into the range of a type: a whole number has to fit, and a number with a point is rounded to the
nearest one of double precision, which has to be finite.

* `digitsValue_append`: a digit more multiplies by ten;
* `readInt64?_eq_some_iff`: a literal is read exactly if its value is below `int64Bound`.
-/

import ContractSyntax.Decimal.Binary64

namespace ContractSyntax

/-- The value of a decimal digit. -/
def digitValue (digit : Char) : Nat := digit.toNat - '0'.toNat

/-- The value of a run of digits. -/
def digitsValue (digits : List Char) : Nat :=
  digits.foldl (fun value digit => 10 * value + digitValue digit) 0

theorem digitsValue_append (digits : List Char) (digit : Char) :
    digitsValue (digits ++ [digit]) = 10 * digitsValue digits + digitValue digit := by
  simp [digitsValue]

/-- The least whole number above the range of `Int64`. -/
def int64Bound : Nat := 0x8000000000000000

/-- The whole number that some digits stand for, if it is in the range of `Int64`. -/
def readInt64? (digits : String) : Option Int64 :=
  let value := digitsValue digits.toList
  if value < int64Bound then some (Int64.ofNat value) else none

/-- The length that some digits stand for, if it is in the range of `UInt64`. -/
def readUInt64? (digits : String) : Option UInt64 :=
  let value := digitsValue digits.toList
  if value < UInt64.size then some (UInt64.ofNat value) else none

/-- The number that digits with a point stand for, if it is in the range of `Binary64`. -/
def readBinary64? (digits : String) : Option Binary64 :=
  let whole := digits.toList.takeWhile (· != '.')
  let places := (digits.toList.dropWhile (· != '.')).drop 1
  let number := Binary64.ofRatio (digitsValue (whole ++ places)) (Nat.pow 10 places.length)
  if number.isFinite then some number else none

theorem readInt64?_eq_some_iff {digits : String} {value : Int64} :
    readInt64? digits = some value ↔
      digitsValue digits.toList < int64Bound ∧ Int64.ofNat (digitsValue digits.toList) = value := by
  unfold readInt64?
  dsimp only
  split
  · next fits => exact ⟨fun read => ⟨fits, Option.some.inj read⟩, fun read => congrArg some read.2⟩
  · next large => exact ⟨fun read => (nomatch read), fun read => absurd read.1 large⟩

/-- What is read has no sign. -/
theorem nonneg_of_readInt64? {digits : String} {value : Int64}
    (read : readInt64? digits = some value) : 0 ≤ value := by
  obtain ⟨small, rfl⟩ := readInt64?_eq_some_iff.mp read
  rw [Int64.le_iff_toInt_le, Int64.toInt_ofNat_of_lt small]
  exact Int.natCast_nonneg _

example : readInt64? "9223372036854775807" = some 9223372036854775807 := by decide +kernel
example : readInt64? "9223372036854775808" = none := by decide +kernel
example : readBinary64? "2.50" = some ⟨0x4004000000000000⟩ := by decide +kernel

end ContractSyntax
