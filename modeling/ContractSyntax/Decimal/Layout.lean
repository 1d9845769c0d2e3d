/-
**Numbers as text.**

Source text writes a number out in full, however long that is; serialized data turns to an exponent
when the first digit stands far from the decimal point. A whole number keeps one decimal place in
either.
-/

import ContractSyntax.Decimal.Shortest

namespace ContractSyntax

/-- A run of the digit zero. -/
def zeros (count : Nat) : List Char := List.replicate count '0'

namespace Decimal

/-- The digits of the significant part. -/
def characters (decimal : Decimal) : List Char := Nat.toDigits 10 decimal.digits

/-- The power of ten of the first digit. -/
def leading (decimal : Decimal) : Int := decimal.characters.length - 1 + decimal.exponent

/-- Every digit in its place, and one place after the point at least. -/
def positional (decimal : Decimal) : List Char :=
  match decimal.exponent with
  | .ofNat power => decimal.characters ++ zeros power ++ ['.', '0']
  | .negSucc power =>
    let places := power + 1
    let characters := zeros (places + 1 - decimal.characters.length) ++ decimal.characters
    let whole := characters.length - places
    characters.take whole ++ '.' :: characters.drop whole

/-- One digit before the point, and the power of ten with its sign. -/
def scientific (decimal : Decimal) : List Char :=
  let power := decimal.leading
  let mark := if power < 0 then '-' else '+'
  let exponent := 'e' :: mark :: Nat.toDigits 10 power.natAbs
  match decimal.characters with
  | first :: second :: rest => first :: '.' :: second :: rest ++ exponent
  | characters => characters ++ exponent

end Decimal

/-- The powers of ten of a first digit for which serialized data uses no exponent. -/
def isNearPoint (power : Int) : Bool := -5 ≤ power && power ≤ 15

namespace Binary64

/-- A magnitude as it stands in source text. -/
def sourceDigits (number : Binary64) : String :=
  if number.isUndefined then "NaN"
  else if number.isFinite then String.ofList (number.shortest .up).positional
  else "inf"

/-- A number as it stands in serialized data, which has no word for the infinite ones. -/
def dataText (number : Binary64) : String :=
  if number.isFinite then
    let decimal := number.shortest .even
    let sign := if number.isNegative then "-" else ""
    sign ++ String.ofList
      (if isNearPoint decimal.leading then decimal.positional else decimal.scientific)
  else "null"

example : sourceDigits ⟨0x4004000000000000⟩ = "2.5" := by decide +kernel
example : sourceDigits ⟨0x3ee4f8b588e368f1⟩ = "0.00001" := by decide +kernel
example : sourceDigits ⟨0x4059000000000000⟩ = "100.0" := by decide +kernel
example : dataText ⟨0x4415af1d78b58c40⟩ = "1e+20" := by decide +kernel
example : dataText ⟨0xbe7ad7f29abcaf48⟩ = "-1e-7" := by decide +kernel

end Binary64

end ContractSyntax
