/-
**The shortest decimal that reads back as a given number.**

For one, two, … seventeen digits, the two neighbours of the number on the decimal grid with that
many digits are read as numbers again; the first grid on which one of them reads back gives the
answer. If both do, the nearer wins, and a caller says which of two equally near ones to take.

* `readsBack_of_withDigits?`: whatever a grid offers reads back.
-/

import ContractSyntax.Decimal.Binary64

namespace ContractSyntax

/-- The number `digits * 10 ^ exponent`. -/
structure Decimal where
  digits : Nat
  exponent : Int
  deriving DecidableEq, Inhabited, Repr

namespace Decimal

/-- The same value with one final zero fewer, if there is one. -/
def trim (decimal : Decimal) : Decimal :=
  if decimal.digits % 10 = 0 then ⟨decimal.digits / 10, decimal.exponent + 1⟩ else decimal

end Decimal

/-- Which of two equally near decimals to take. -/
inductive Tie where
  /-- The greater one. -/
  | up
  /-- The one whose last digit is even. -/
  | even
  deriving DecidableEq, Inhabited, Repr

namespace Binary64

/-- The number nearest to a decimal. -/
def ofDecimal (decimal : Decimal) : Binary64 :=
  match decimal.exponent with
  | .ofNat power => ofRatio (decimal.digits * Nat.pow 10 power) 1
  | .negSucc power => ofRatio decimal.digits (Nat.pow 10 (power + 1))

/-- How many decimal digits a whole number has, none for zero. -/
def digitCount (value : Nat) : Nat := if value = 0 then 0 else (Nat.toDigits 10 value).length

/-- The power of ten just above a positive ratio. -/
def decimalPoint (dividend divisor : Nat) : Int :=
  if divisor ≤ dividend then digitCount (dividend / divisor)
  else 1 - (digitCount ((divisor - 1) / dividend) : Int)

/-- The two neighbours of a magnitude on the grid with `count` digits, the preferred one first: the
nearer, or of two equally near ones the one that `tie` names. -/
def neighbours (tie : Tie) (number : Binary64) (count : Nat) : List Decimal :=
  let exponent := decimalPoint number.units unitsPerOne - count
  let (dividend, divisor) :=
    match exponent with
    | .ofNat power => (number.units, unitsPerOne * Nat.pow 10 power)
    | .negSucc power => (number.units * Nat.pow 10 (power + 1), unitsPerOne)
  let low := dividend / divisor
  let rest := dividend % divisor
  let lowFirst :=
    if 2 * rest = divisor then
      match tie with
      | .up => false
      | .even => low % 2 = 0
    else 2 * rest < divisor
  if lowFirst then [⟨low, exponent⟩, ⟨low + 1, exponent⟩]
  else [⟨low + 1, exponent⟩, ⟨low, exponent⟩]

/-- Whether a decimal reads as the magnitude of `number`. -/
def readsBack (number : Binary64) (decimal : Decimal) : Bool :=
  (ofDecimal decimal).magnitude == number.magnitude

/-- The better neighbour with `count` digits among those that read back. -/
def withDigits? (tie : Tie) (number : Binary64) (count : Nat) : Option Decimal :=
  (number.neighbours tie count).find? number.readsBack

theorem readsBack_of_withDigits? {tie : Tie} {number : Binary64} {count : Nat} {decimal : Decimal}
    (found : number.withDigits? tie count = some decimal) : number.readsBack decimal = true :=
  List.find?_some found

/-- All digits of a magnitude. -/
def exact (number : Binary64) : Decimal := ⟨number.units * Nat.pow 5 1074, -1074⟩

/-- The shortest decimal for a finite magnitude, without a final zero. -/
def shortest (tie : Tie) (number : Binary64) : Decimal :=
  if number.magnitude = 0 then ⟨0, 0⟩
  else
    match (List.range 17).findSome? fun count => number.withDigits? tie (count + 1) with
    | some decimal => decimal.trim
    | none => number.exact

example : shortest .up ⟨0x3fb999999999999a⟩ = ⟨1, -1⟩ := by decide +kernel
example : shortest .up ⟨0x44b52d02c7e14af6⟩ = ⟨1, 23⟩ := by decide +kernel
example : shortest .up ⟨0x3e60000000000000⟩ = ⟨29802322387695313, -24⟩ := by decide +kernel
example : shortest .even ⟨0x3e60000000000000⟩ = ⟨29802322387695312, -24⟩ := by decide +kernel

end Binary64

end ContractSyntax
