/-
**Reading definitions.**

Attributes and a visibility may stand before a definition; the reserved word after them says which
kind it is. The path of a module takes neither.

* `Parser.item_advances`: a definition takes a token at least.
-/

import ContractSyntax.Grammar.Contract

namespace ContractSyntax

namespace Parser

/-- A name and its type after a colon. -/
def typedName (role : NameRole) : Parser TypedName := do
  let bound ← name role
  let _ ← symbol .colon
  return ⟨bound, ← type⟩

/-- The rest of an attribute, after the sign for it. -/
def attributeRest (start : Span) : Parser Attribute := do
  let mark ← name .mark
  match ← Level.top.arguments? with
  | some (arguments, stop) => return ⟨mark, some arguments, start.merge stop⟩
  | none => return ⟨mark, none, start.merge mark.span⟩

/-- The attributes of a definition. -/
def attributes : Parser (List Attribute) := opened (.symbol .at_) attributeRest

/-- The visibility of a definition. -/
def visibility : Parser Visibility := do
  match ← accept (.keyword .pub) with
  | some _ => return .shown
  | none => return .hidden

/-- The path of a module. -/
def useItem : Parser UseItem := do
  let start ← keyword .use
  let first ← name .modulePath
  let rest ← opened (.symbol .colonColon) fun _ => name .modulePath
  let stop ← symbol .semicolon
  return ⟨first :: rest, start.merge stop⟩

/-- What stands before the word for a definition. -/
structure Header where
  start : Span
  attributes : List Attribute
  visibility : Visibility

/-- Whether neither an attribute nor a visibility was written. -/
def Header.isPlain (header : Header) : Bool :=
  header.attributes.isEmpty && header.visibility = .hidden

/-- The header of a definition. -/
def header : Parser Header := do
  return ⟨← here, ← attributes, ← visibility⟩

/-- A structure. -/
def structItem (header : Header) : Parser StructItem := do
  let _ ← keyword .struct
  let name ← name .struct
  let _ ← symbol .leftBrace
  let (fields, stop) ← list .rightBrace (typedName .field)
  return ⟨header.attributes, header.visibility, name, fields, header.start.merge stop⟩

/-- A variant of an enumeration. -/
def variant : Parser Variant := do
  let name ← name .variant
  match ← accept (.symbol .leftParen) with
  | some _ =>
    let (parts, _) ← list .rightParen type
    return ⟨name, some parts⟩
  | none => return ⟨name, none⟩

/-- An enumeration. -/
def enumItem (header : Header) : Parser EnumItem := do
  let _ ← keyword .enum
  let name ← name .enumeration
  let _ ← symbol .leftBrace
  let (variants, stop) ← list .rightBrace variant
  return ⟨header.attributes, header.visibility, name, variants, header.start.merge stop⟩

/-- A function. -/
def functionItem (header : Header) : Parser FunctionItem := do
  let _ ← keyword .fn
  let name ← name .function
  let _ ← symbol .leftParen
  let (parameters, _) ← list .rightParen (typedName .parameter)
  let _ ← symbol .arrow
  let resultName ← nameBefore (.symbol .colon)
  let resultType ← type
  let contract ← contract?
  let _ ← symbol .equal
  let body ← expression
  let stop ← symbol .semicolon
  return ⟨header.attributes, header.visibility, name, parameters, resultName, resultType, contract,
    body, header.start.merge stop⟩

/-- The words of which one has to follow a header. -/
def itemWords : List Expected :=
  [Keyword.fn, .struct, .enum, .use].map fun word => .token (.keyword word)

/-- A definition after its header. -/
def itemBody (header : Header) : Parser Item := do
  match ← current with
  | some (.keyword .use) => if header.isPlain then return .use (← useItem) else fail .decoratedUse
  | some (.keyword .struct) => return .struct (← structItem header)
  | some (.keyword .enum) => return .enum (← enumItem header)
  | some (.keyword .fn) => return .function (← functionItem header)
  | _ => fail (.unexpected itemWords)

/-- A definition with what stands before it. -/
def item : Parser Item := do
  let item ← itemBody (← header)
  note (.defined item.name? item.span.start)
  return item

theorem itemBody_advances (header : Header) : (itemBody header).Advances := by
  refine .bind_right fun found => ?_
  split
  · split
    · exact .bind_left (.bind_left (.expect _))
    · exact .fail _
  · exact .bind_left (.bind_left (.expect _))
  · exact .bind_left (.bind_left (.expect _))
  · exact .bind_left (.bind_left (.expect _))
  · exact .fail _

theorem item_advances : item.Advances :=
  .bind_right fun header => .bind_left (itemBody_advances header)

end Parser

end ContractSyntax
