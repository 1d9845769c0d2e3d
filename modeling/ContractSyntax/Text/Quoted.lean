/-
**One character between single quotes.**

A message names a character in the form of a character literal: a few have escapes of their own,
one that would leave no mark is written by its code point, and the rest stand as they are.
-/

import ContractSyntax.Text.Escaped

namespace ContractSyntax

/-- The lower-case hexadecimal digits of a number. -/
def hexadecimal (value : Nat) : String := String.ofList (Nat.toDigits 16 value)

/-- A character as it stands between single quotes. -/
def escapeCharacter (character : Char) : String :=
  if character = '\x00' then "\\0"
  else if character = '\t' then "\\t"
  else if character = '\r' then "\\r"
  else if character = '\n' then "\\n"
  else if character = '\'' then "\\'"
  else if character = '\\' then "\\\\"
  else if isEscaped character then "\\u\x7b" ++ hexadecimal character.toNat ++ "\x7d"
  else character.toString

/-- A character between single quotes. -/
def quoteCharacter (character : Char) : String := "'" ++ escapeCharacter character ++ "'"

end ContractSyntax
