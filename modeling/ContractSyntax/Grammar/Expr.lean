/-
**Reading expressions.**

Constructs that open with a word or a brace stand above the operators. Below them come six tiers of
infix operators, the operators before an operand, the suffixes of an operand, and the operands. In a
block, a binding reaches to the closing brace, and a name before an equals sign starts an
assignment.
-/

import ContractSyntax.Grammar.Pattern
import ContractSyntax.Grammar.Type

namespace ContractSyntax

open ContractSyntax.Parser

namespace Level

variable (deeper : Level)

/-! ### Operands -/

/-- The rest of a variant, after the name of the enumeration and the two colons. -/
def variantRest (enumeration : Name) : Parser (Spanned Expr) := do
  let variant ← name .variant
  match ← deeper.arguments? with
  | some (arguments, stop) =>
    return ⟨.variant enumeration variant (some arguments), enumeration.span.merge stop⟩
  | none => return ⟨.variant enumeration variant none, enumeration.span.merge variant.span⟩

/-- A call, a variant or a variable, after its first name. -/
def named (first : Name) : Parser (Spanned Expr) := do
  match ← deeper.arguments? with
  | some (arguments, stop) => return ⟨.call first arguments, first.span.merge stop⟩
  | none =>
    match ← accept (.symbol .colonColon) with
    | some _ => deeper.variantRest first
    | none => return ⟨.var first.node, first.span⟩

/-- A unit or an expression in parentheses, after the opening one. -/
def parenthesis (start : Span) : Parser (Spanned Expr) := do
  match ← accept (.symbol .rightParen) with
  | some stop => return ⟨.unit, start.merge stop⟩
  | none =>
    let inner ← deeper.subexpr
    let stop ← symbol .rightParen
    return ⟨.paren inner, start.merge stop⟩

/-- The value of one field of a new structure. -/
def fieldValue : Parser FieldValue := do
  let field ← name .field
  let _ ← symbol .colon
  return .mk field (← deeper.subexpr)

/-- A new structure, after the word for it. -/
def construct (start : Span) : Parser (Spanned Expr) := do
  let struct ← name .struct
  let _ ← symbol .leftBrace
  let (fields, stop) ← list .rightBrace deeper.fieldValue
  return ⟨.construct struct fields, start.merge stop⟩

/-- An operand without suffixes. -/
def primary : Parser (Spanned Expr) := do
  match ← current with
  | some (.int digits) =>
    let value ← intValue digits
    return ⟨.int value, ← pass⟩
  | some (.float digits) =>
    let value ← floatValue digits
    return ⟨.float value, ← pass⟩
  | some (.string content) => return ⟨.string content, ← pass⟩
  | some (.keyword .true_) => return ⟨.bool true, ← pass⟩
  | some (.keyword .false_) => return ⟨.bool false, ← pass⟩
  | some (.keyword .ret) => return ⟨.ret, ← pass⟩
  | some (.keyword .it) => return ⟨.it, ← pass⟩
  | some (.keyword .new) => deeper.construct (← pass)
  | some (.symbol .leftParen) => deeper.parenthesis (← pass)
  | some (.symbol .leftBracket) =>
    let start ← pass
    let (elements, stop) ← deeper.exprs .rightBracket
    return ⟨.array elements, start.merge stop⟩
  | some (.ident text) => deeper.named ⟨text, ← pass⟩
  | _ => fail (.unexpected [.expression])

/-! ### Suffixes -/

/-- What may follow a dot: a moment, a method with its arguments, or a field. -/
def dotSuffix (receiver : Spanned Expr) : Parser (Spanned Expr) := do
  match ← current with
  | some (.keyword .pre) => return ⟨.state receiver .pre, receiver.span.merge (← pass)⟩
  | some (.keyword .post) => return ⟨.state receiver .post, receiver.span.merge (← pass)⟩
  | some (.ident text) =>
    let member : Name := ⟨text, ← pass⟩
    match ← deeper.arguments? with
    | some (arguments, stop) =>
      return ⟨.methodCall receiver member arguments, receiver.span.merge stop⟩
    | none => return ⟨.field receiver member, receiver.span.merge member.span⟩
  | _ =>
    fail (.unexpected [.name .fieldOrMethod, .token (.keyword .pre), .token (.keyword .post)])

/-- A position in brackets, after the opening one. -/
def indexSuffix (receiver : Spanned Expr) : Parser (Spanned Expr) := do
  let position ← deeper.subexpr
  let stop ← symbol .rightBracket
  return ⟨.index receiver position, receiver.span.merge stop⟩

/-- The suffix that a token opens. -/
def suffix? : Token → Option (Spanned Expr → Parser (Spanned Expr))
  | .symbol .dot => some fun receiver => do
    let _ ← pass
    deeper.dotSuffix receiver
  | .symbol .leftBracket => some fun receiver => do
    let _ ← pass
    deeper.indexSuffix receiver
  | _ => none

/-- An operand with its suffixes. -/
def suffixed : Parser (Spanned Expr) := .chain deeper.primary deeper.suffix?

/-! ### Operators -/

/-- The digits of the least integer without its sign. -/
def leastMagnitude : String := "9223372036854775808"

/-- Passes the digits of the least integer after its sign. A suffix would bind to the digits first,
and those alone are out of range. -/
def leastDigits? : Parser (Option Span) := do
  if (← current) = some (.int leastMagnitude) then
    match ← second with
    | some (.symbol .dot) | some (.symbol .leftBracket) => return none
    | _ => return some (← pass)
  else return none

/-- What an operator applies to, after the operator. -/
def operand (operator : UnaryOperator) (start : Span) : Parser (Spanned Expr) := do
  let operand ← Parser.nested deeper.signed
  return ⟨.unary operator operand, start.merge operand.span⟩

/-- An operand with the operators before it, from the level below. -/
def signedBody : Parser (Spanned Expr) := do
  match ← current with
  | some (.symbol .minus) =>
    let start ← pass
    match ← leastDigits? with
    | some stop => return ⟨.int Int64.minValue, start.merge stop⟩
    | none => deeper.operand .negate start
  | some (.symbol .star) => deeper.operand .dereference (← pass)
  | some (.keyword .not_) => deeper.operand .not (← pass)
  | some (.symbol .ampersand) =>
    let start ← pass
    match ← accept (.keyword .mut_) with
    | some _ => deeper.operand .mutableReference start
    | none => deeper.operand .reference start
  | _ => deeper.suffixed

/-- The infix operator that a token stands for, with its right operand, if it binds as tightly as
stated. Operators of one tier group to the left, so the right operand takes those above only. -/
def infixed? (power : Nat) (token : Token) : Option (Spanned Expr → Parser (Spanned Expr)) :=
  match BinaryOperator.ofToken? token with
  | some operator =>
    if power ≤ operator.power then some fun left => do
      let _ ← pass
      let right ← deeper.tier (operator.power + 1)
      return ⟨.binary left operator right, left.span.merge right.span⟩
    else none
  | none => none

/-- Operands with infix operators between them, from the level below. -/
def tierBody (power : Nat) : Parser (Spanned Expr) :=
  .chain deeper.signedBody (deeper.infixed? power)

/-! ### Blocks -/

/-- A new value for a variable, after its name and the equals sign. -/
def assignment (target : Name) : Parser (Spanned Expr) := do
  let value ← deeper.subexpr
  return ⟨.assign target value, target.span.merge value.span⟩

/-- An expression in a block: a statement if a semicolon follows, and the value of the block if the
closing brace does. -/
def blockExpr : Parser (Entry (Spanned Expr) (Option (Spanned Expr))) := do
  let expr ← deeper.subexpr
  match ← current with
  | some (.symbol .semicolon) => return .item expr
  | some (.symbol .rightBrace) => return .last (some expr)
  | _ => fail (.unexpected [.token (.symbol .semicolon), .token (.symbol .rightBrace)])

/-- The next statement of a block, or how the block ends. -/
def blockEntry : Parser (Entry (Spanned Expr) (Option (Spanned Expr))) := do
  match ← current with
  | none | some (.symbol .rightBrace) => return .last none
  | some (.keyword .let_) => return .last (some (← Parser.nested deeper.binding))
  | _ =>
    match ← nameBefore (.symbol .equal) with
    | some target => return .item (← deeper.assignment target)
    | none => deeper.blockExpr

/-- The statements of a block and its value, up to the closing brace. -/
def blockItems : Parser (List (Spanned Expr) × Option (Spanned Expr)) :=
  .sequence (.symbol .semicolon) deeper.blockEntry

/-- A block, after the opening brace. -/
def block (start : Span) : Parser (Spanned Expr) := do
  let (statements, last) ← deeper.blockItems
  let stop ← symbol .rightBrace
  return ⟨.block statements last, start.merge stop⟩

/-- The rest of a block after a binding. A value without statements is the body itself; anything
else becomes a block from the next token to the last one passed. -/
def blockRest : Parser (Spanned Expr) := do
  let start := (← here).start
  match ← deeper.blockItems with
  | ([], some last) => return last
  | (statements, last) =>
    return ⟨.block statements last, start, max (← lastStop) start⟩

/-! ### Constructs -/

/-- A stated type, after a colon. -/
def statedType? : Parser (Option (Spanned Ty)) := do
  match ← accept (.symbol .colon) with
  | some _ => return some (← deeper.subtype)
  | none => return none

/-- A binding, whose body is read with the parser given. -/
def bindingOver (body : Parser (Spanned Expr)) : Parser (Spanned Expr) := do
  let start ← keyword .let_
  let isMutable := (← accept (.keyword .mut_)).isSome
  let bound ← name .boundVariable
  let type ← deeper.statedType?
  let _ ← symbol .equal
  let value ← deeper.subexpr
  let _ ← symbol .semicolon
  let body ← body
  note (.bound bound.node isMutable)
  return ⟨.binding isMutable bound type value body, start.merge body.span⟩

/-- A binding in a block, from the level below. -/
def bindingBody : Parser (Spanned Expr) := deeper.bindingOver deeper.blockRest

/-- A condition with its two branches, after the word for it. -/
def conditional (start : Span) : Parser (Spanned Expr) := do
  let condition ← deeper.subexpr
  let _ ← keyword .then_
  let yes ← deeper.subexpr
  let _ ← keyword .else_
  let no ← deeper.subexpr
  return ⟨.conditional condition yes no, start.merge no.span⟩

/-- One alternative of a `match`. -/
def matchArm : Parser MatchArm := do
  let pattern ← Parser.pattern
  let _ ← symbol .fatArrow
  return .mk pattern (← deeper.subexpr)

/-- A `match`, after the word for it. -/
def matching (start : Span) : Parser (Spanned Expr) := do
  let subject ← deeper.subexpr
  let _ ← symbol .leftBrace
  let (arms, stop) ← list .rightBrace deeper.matchArm
  return ⟨.matching subject arms, start.merge stop⟩

/-- An expression in braces, and where the closing one is. -/
def braced : Parser (Spanned Expr × Span) := do
  let _ ← symbol .leftBrace
  let body ← deeper.subexpr
  return (body, ← symbol .rightBrace)

/-- A loop with a condition, after the word for it. -/
def whileLoop (start : Span) : Parser (Spanned Expr) := do
  let condition ← deeper.subexpr
  let (body, stop) ← deeper.braced
  return ⟨.whileLoop condition body, start.merge stop⟩

/-- A loop over a range, after the word for it. -/
def forLoop (start : Span) : Parser (Spanned Expr) := do
  let bound ← name .loopVariable
  let _ ← keyword .in_
  let range ← deeper.subexpr
  let (body, stop) ← deeper.braced
  return ⟨.forLoop bound range body, start.merge stop⟩

/-- An expression, from the level below. -/
def exprBody : Parser (Spanned Expr) := do
  match ← current with
  | some (.keyword .if_) => deeper.conditional (← pass)
  | some (.keyword .let_) => deeper.bindingOver deeper.subexpr
  | some (.keyword .match_) => deeper.matching (← pass)
  | some (.keyword .while_) => deeper.whileLoop (← pass)
  | some (.keyword .for_) => deeper.forLoop (← pass)
  | some (.symbol .leftBrace) => deeper.block (← pass)
  | _ => deeper.tierBody 1

/-! ### All levels -/

/-- The level above a given one. -/
def above : Level where
  expr := deeper.exprBody
  type := deeper.typeBody
  signed := deeper.signedBody
  binding := deeper.bindingBody
  tier := deeper.tierBody

/-- The level with a given number of levels below it. -/
def tower : Nat → Level
  | 0 => ground
  | count + 1 => (tower count).above

/-- The level from which a whole text is read. A run at `tower (count + 1)` has room `count` at
most, and every step down takes from both, so the level below all others is never read with. -/
def top : Level := tower nestingLimit

end Level

namespace Parser

/-- An expression. -/
def expression : Parser (Spanned Expr) := Level.top.subexpr

/-- A type. -/
def type : Parser (Spanned Ty) := Level.top.subtype

end Parser

end ContractSyntax
