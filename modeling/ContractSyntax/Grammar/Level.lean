/-
**Levels: the recursive parsers of one depth of nesting.**

Whatever part of the grammar contains itself does so one level deeper at least. So the parsers of a
level are defined from those of the level below, without recursion among themselves.
-/

import ContractSyntax.Parser.Combinator
import ContractSyntax.Tree.Item

namespace ContractSyntax

/-- The parsers that the parts of a construct are read with. All of them run in the room of the
level, that is, after the level has been opened. -/
structure Level where
  /-- An expression. -/
  expr : Parser (Spanned Expr)
  /-- A type. -/
  type : Parser (Spanned Ty)
  /-- What an operator before an operand applies to. -/
  signed : Parser (Spanned Expr)
  /-- A binding in a block, whose body is the rest of the block. -/
  binding : Parser (Spanned Expr)
  /-- An expression of operators that bind as tightly as stated, or more. -/
  tier : (power : Nat) → Parser (Spanned Expr)

namespace Level

/-- The level below all others, at which nothing can be read. -/
def ground : Level where
  expr := .fail .tooDeep
  type := .fail .tooDeep
  signed := .fail .tooDeep
  binding := .fail .tooDeep
  tier _ := .fail .tooDeep

variable (deeper : Level)

/-- An expression one level deeper. -/
def subexpr : Parser (Spanned Expr) := .nested deeper.expr

/-- A type one level deeper. -/
def subtype : Parser (Spanned Ty) := .nested deeper.type

/-- Expressions between commas, up to a closing symbol. -/
def exprs (close : Symbol) : Parser (List (Spanned Expr) × Span) := .list close deeper.subexpr

/-- Expressions in parentheses, if a parenthesis opens, and where the closing one is. -/
def arguments? : Parser (Option (List (Spanned Expr) × Span)) := do
  match ← Parser.accept (.symbol .leftParen) with
  | some _ => return some (← deeper.exprs .rightParen)
  | none => return none

end Level

end ContractSyntax
