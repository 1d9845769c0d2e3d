/-
**Serialized data as text.**

One item or field stands on a line, two spaces further to the right than what holds it; an empty
list or object keeps its brackets together.
-/

import ContractSyntax.Decimal.Layout
import ContractSyntax.Serial.Value
import ContractSyntax.Text.Quoted

namespace ContractSyntax

/-- A character in a quoted string. Quotes, backslashes and controls are escaped. -/
def escapeDataCharacter (character : Char) : String :=
  if character = '"' then "\\\""
  else if character = '\\' then "\\\\"
  else if character = '\x08' then "\\b"
  else if character = '\x0c' then "\\f"
  else if character = '\n' then "\\n"
  else if character = '\r' then "\\r"
  else if character = '\t' then "\\t"
  else if character.toNat < 0x20 then
    "\\u00" ++ (if character.toNat < 0x10 then "0" else "") ++ hexadecimal character.toNat
  else character.toString

/-- A string between double quotes. -/
def quoteData (content : String) : String :=
  content.toList.foldl (fun text character => text ++ escapeDataCharacter character) "\"" ++ "\""

namespace Value

/-- A new line with the margin of a depth. -/
def newline (depth : Nat) : String := "\n" ++ String.ofList (List.replicate (2 * depth) ' ')

mutual

/-- Writes a value at a depth after some text. -/
def write (text : String) (depth : Nat) : Value → String
  | null => text ++ "null"
  | bool value => text ++ toString value
  | int value => text ++ toString value
  | float value => text ++ value.dataText
  | string value => text ++ quoteData value
  | array [] => text ++ "[]"
  | array (first :: rest) =>
    writeItems (write (text ++ "[" ++ newline (depth + 1)) (depth + 1) first) (depth + 1) rest ++
      newline depth ++ "]"
  | object [] => text ++ "\x7b\x7d"
  | object ((name, first) :: rest) =>
    writeFields
        (write (text ++ "\x7b" ++ newline (depth + 1) ++ quoteData name ++ ": ") (depth + 1) first)
        (depth + 1) rest ++
      newline depth ++ "\x7d"

/-- Writes the further items of a list. -/
def writeItems (text : String) (depth : Nat) : List Value → String
  | [] => text
  | item :: rest => writeItems (write (text ++ "," ++ newline depth) depth item) depth rest

/-- Writes the further fields of an object. -/
def writeFields (text : String) (depth : Nat) : List (String × Value) → String
  | [] => text
  | (name, value) :: rest =>
    writeFields (write (text ++ "," ++ newline depth ++ quoteData name ++ ": ") depth value) depth
      rest

end

/-- The text of a value. -/
def text (value : Value) : String := write "" 0 value

end Value

end ContractSyntax
