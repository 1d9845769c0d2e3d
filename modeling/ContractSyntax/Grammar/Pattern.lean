/-
**Reading patterns.**

A literal, the wildcard, a name, or a variant of an enumeration. A number has no sign here.
-/

import ContractSyntax.Decimal.Reading
import ContractSyntax.Parser.Combinator
import ContractSyntax.Tree.Basic

namespace ContractSyntax

namespace Parser

/-- The value of a literal that is at the cursor, or the stated error. -/
def literalValue {α : Type} (value? : Option α) (cause : Cause) : Parser α :=
  match value? with
  | some value => pure value
  | none => fail cause

/-- The whole number at the cursor. -/
def intValue (digits : String) : Parser Int64 :=
  literalValue (readInt64? digits) (.integerRange digits)

/-- The number with a point at the cursor. -/
def floatValue (digits : String) : Parser Binary64 :=
  literalValue (readBinary64? digits) (.floatRange digits)

/-- The rest of a variant pattern, after the name of the enumeration and the two colons. -/
def variantPattern (enumeration : Name) : Parser (Spanned Pattern) := do
  let variant ← name .variant
  match ← accept (.symbol .leftParen) with
  | some _ =>
    let (bindings, stop) ← list .rightParen (name .binding)
    return ⟨.variant enumeration variant (some bindings), enumeration.span.merge stop⟩
  | none => return ⟨.variant enumeration variant none, enumeration.span.merge variant.span⟩

/-- A pattern. -/
def pattern : Parser (Spanned Pattern) := do
  match ← current with
  | some (.int digits) =>
    let value ← intValue digits
    return ⟨.literal (.int value), ← pass⟩
  | some (.float digits) =>
    let value ← floatValue digits
    return ⟨.literal (.float value), ← pass⟩
  | some (.string content) => return ⟨.literal (.string content), ← pass⟩
  | some (.keyword .true_) => return ⟨.literal (.bool true), ← pass⟩
  | some (.keyword .false_) => return ⟨.literal (.bool false), ← pass⟩
  | some (.keyword .underscore) => return ⟨.wildcard, ← pass⟩
  | some (.ident text) =>
    let place ← pass
    match ← accept (.symbol .colonColon) with
    | some _ => variantPattern ⟨text, place⟩
    | none => return ⟨.bind text, place⟩
  | _ => fail (.unexpected [.pattern])

end Parser

end ContractSyntax
