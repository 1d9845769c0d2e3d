/-
**Reading contracts.**

A contract is a block of conditions after `where`, or a condition on entry and one on exit, each of
which may be missing; without either there is no contract.
-/

import ContractSyntax.Grammar.Expr

namespace ContractSyntax

namespace Parser

/-- A condition, under a label if a name and a colon come first. -/
def condition : Parser Condition := do
  let label ← nameBefore (.symbol .colon)
  return ⟨label, ← expression⟩

/-- The conditions after the word for them. -/
def conditions : Parser (List Condition) := do
  let _ ← symbol .leftBrace
  let (conditions, _) ← list .rightBrace condition
  note (.conditioned conditions.length)
  return conditions

/-- An expression after a reserved word, if the word is there. -/
def clause? (word : Keyword) : Parser (Option (Spanned Expr)) := do
  match ← accept (.keyword word) with
  | some _ => return some (← expression)
  | none => return none

/-- A contract, if there is one. -/
def contract? : Parser (Option Contract) := do
  match ← accept (.keyword .where_) with
  | some _ => return some (.conditions (← conditions))
  | none =>
    match ← clause? .pre, ← clause? .post with
    | none, none => return none
    | pre, post => return some (.clauses pre post)

end Parser

end ContractSyntax
