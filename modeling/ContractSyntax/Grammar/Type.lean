/-
**Reading types.**

The name of a built-in type may be followed by constraints in braces, unless it is the string type.
-/

import ContractSyntax.Grammar.Level
import ContractSyntax.Decimal.Reading

namespace ContractSyntax

open ContractSyntax.Parser

/-- The length of an array type. A length out of range is passed before it is reported. -/
def arrayLength : Parser UInt64 := do
  match ← current with
  | some (.int digits) =>
    let place ← pass
    match readUInt64? digits with
    | some length => return length
    | none => failWith ⟨.lengthRange digits, some (.int digits), place⟩
  | _ => fail (.unexpected [.arrayLength])

namespace Level

variable (deeper : Level)

/-- The target of a reference, after the sign. -/
def referenceType (start : Span) : Parser (Spanned Ty) := do
  let isMutable := (← accept (.keyword .mut_)).isSome
  let target ← deeper.subtype
  let type := if isMutable then .mutableReference target.node else .reference target.node
  return ⟨type, start.merge target.span⟩

/-- The element type and length of an array, after the bracket. -/
def arrayType (start : Span) : Parser (Spanned Ty) := do
  let element ← deeper.subtype
  let _ ← symbol .semicolon
  let length ← arrayLength
  let stop ← symbol .rightBracket
  return ⟨.array element.node length, start.merge stop⟩

/-- A built-in type with its constraints, after its name. -/
def primitiveType (base : Primitive) (start : Span) : Parser (Spanned Ty) := do
  if base.isRefinable then
    match ← accept (.symbol .leftBrace) with
    | some _ =>
      let (constraints, stop) ← deeper.exprs .rightBrace
      note (.refined base constraints.length)
      return ⟨.refined base constraints, start.merge stop⟩
    | none => return ⟨.primitive base, start⟩
  else return ⟨.primitive base, start⟩

/-- A type, from the level below. -/
def typeBody : Parser (Spanned Ty) := do
  match ← current with
  | some (.symbol .ampersand) => deeper.referenceType (← pass)
  | some (.symbol .leftBracket) => deeper.arrayType (← pass)
  | some (.symbol .leftParen) =>
    let start ← pass
    let stop ← symbol .rightParen
    return ⟨.unit, start.merge stop⟩
  | some (.keyword word) =>
    match Primitive.ofWord? word with
    | some base => deeper.primitiveType base (← pass)
    | none => fail (.unexpected [.type])
  | some (.ident text) => return ⟨.named text, ← pass⟩
  | _ => fail (.unexpected [.type])

end Level

end ContractSyntax
