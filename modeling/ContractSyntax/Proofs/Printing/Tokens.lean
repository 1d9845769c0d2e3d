/-
**The tokens of printed trees.**

The gaps between printed tokens are forgotten here. The operands of a derived tree bind as tightly
as their places demand, so nothing is put into parentheses that was not in parentheses before.

* `Derives.binds`: how tightly the tree of a phrase binds;
* `Phrase.pieces`: each phrase as it is printed.
-/

import ContractSyntax.Proofs.Derivation.Opening

namespace ContractSyntax

open Piece

namespace Piece

@[simp] theorem tokens_nil : tokens [] = [] := rfl

@[simp] theorem tokens_cons_token (token : Token) (pieces : List Piece) :
    tokens (.token token :: pieces) = token :: tokens pieces := rfl

@[simp] theorem tokens_cons_space (pieces : List Piece) : tokens (space :: pieces) = tokens pieces :=
  rfl

@[simp] theorem tokens_cons_newline (pieces : List Piece) :
    tokens (newline :: pieces) = tokens pieces := rfl

@[simp] theorem tokens_cons_sign (symbol : Symbol) (pieces : List Piece) :
    tokens (sign symbol :: pieces) = .symbol symbol :: tokens pieces := rfl

@[simp] theorem tokens_cons_word (keyword : Keyword) (pieces : List Piece) :
    tokens (word keyword :: pieces) = .keyword keyword :: tokens pieces := rfl

@[simp] theorem tokens_cons_ident (text : String) (pieces : List Piece) :
    tokens (ident text :: pieces) = .ident text :: tokens pieces := rfl

attribute [simp] tokens_append

@[simp] theorem parenthesized_false (pieces : List Piece) : parenthesized false pieces = pieces :=
  rfl

@[simp] theorem tokens_parens (lists : List (List Piece)) :
    tokens (parens lists) =
      .symbol .leftParen :: (tokens (commas lists) ++ [.symbol .rightParen]) := by
  simp [parens]

@[simp] theorem tokens_braces (lists : List (List Piece)) :
    tokens (braces lists) =
      .symbol .leftBrace :: (tokens (commas lists) ++ [.symbol .rightBrace]) := by
  cases lists with
  | nil => rfl
  | cons => simp [braces]

@[simp] theorem tokens_wideBraces (lists : List (List Piece)) :
    tokens (wideBraces lists) =
      .symbol .leftBrace :: (tokens (commas lists) ++ [.symbol .rightBrace]) := by
  cases lists with
  | nil => rfl
  | cons list lists => exact tokens_braces (list :: lists)

end Piece

/-! ### Lists of phrases -/

theorem exprPieces_eq (exprs : List (Spanned Expr)) :
    exprPieces exprs = exprs.map fun expr => expr.node.pieces := by
  induction exprs with
  | nil => rfl
  | cons expr exprs continued => rw [exprPieces, continued]; rfl

theorem armPieces_eq (arms : List MatchArm) : armPieces arms = arms.map MatchArm.pieces := by
  induction arms with
  | nil => rfl
  | cons arm arms continued => rw [armPieces, continued]; rfl

theorem fieldPieces_eq (fields : List FieldValue) :
    fieldPieces fields = fields.map FieldValue.pieces := by
  induction fields with
  | nil => rfl
  | cons field fields continued => rw [fieldPieces, continued]; rfl

/-! ### Phrases -/

/-- A stated type as it is printed. -/
def statedPieces : Option (Spanned Ty) → List Piece
  | none => []
  | some type => [sign .colon, space] ++ type.node.pieces

/-- The statements of a block and its value as they are printed. -/
def itemsPieces (statements : List (Spanned Expr)) : Option (Spanned Expr) → List Piece
  | none => statementPieces statements
  | some last => statementPieces statements ++ [space] ++ last.node.pieces

/-- A phrase as it is printed. -/
def Phrase.pieces : (phrase : Phrase) → phrase.Tree → List Piece
  | expr, tree | subexpr, tree | tier _, tree | signed, tree | suffixed, tree | primary, tree
  | binding _, tree | rest _ _, tree => tree.node.pieces
  | field, tree => tree.pieces
  | arm, tree => tree.pieces
  | type, tree | subtype, tree => tree.node.pieces
  | stated, tree => statedPieces tree
  | items _, tree => itemsPieces tree.1 tree.2

namespace Expr

variable (receiver left right condition yes no body inner : Spanned Expr)

theorem pieces_binary (operator : BinaryOperator) :
    (binary left operator right).pieces =
      parenthesized (left.node.power < operator.power) left.node.pieces ++
        [space, operator.piece, space] ++
        parenthesized (right.node.power ≤ operator.power) right.node.pieces := rfl

theorem pieces_unary (operator : UnaryOperator) :
    (unary operator inner).pieces =
      operator.pieces ++ parenthesized (inner.node.power < unaryPower) inner.node.pieces := rfl

theorem pieces_conditional :
    (conditional condition yes no).pieces =
      [word .if_, space] ++ condition.node.pieces ++ [space, word .then_, space] ++
        yes.node.pieces ++ [space, word .else_, space] ++ no.node.pieces := rfl

theorem pieces_binding (isMutable : Bool) (bound : Name) (type : Option (Spanned Ty)) :
    (binding isMutable bound type inner body).pieces =
      [word .let_, space] ++ (if isMutable then [word .mut_, space] else []) ++ [ident bound.node] ++
        statedPieces type ++ [space, sign .equal, space] ++ inner.node.pieces ++
        [sign .semicolon, space] ++ body.node.pieces := by
  cases type <;> rfl

theorem pieces_matching (arms : List MatchArm) :
    (matching inner arms).pieces =
      [word .match_, space] ++ inner.node.pieces ++ [space] ++
        wideBraces (arms.map MatchArm.pieces) := by
  rw [← armPieces_eq]
  rfl

theorem pieces_whileLoop :
    (whileLoop condition body).pieces =
      [word .while_, space] ++ condition.node.pieces ++ [space] ++ braces [body.node.pieces] := rfl

theorem pieces_forLoop (bound : Name) :
    (forLoop bound inner body).pieces =
      [word .for_, space, ident bound.node, space, word .in_, space] ++ inner.node.pieces ++
        [space] ++ braces [body.node.pieces] := rfl

theorem pieces_assign (target : Name) :
    (assign target inner).pieces =
      [ident target.node, space, sign .equal, space] ++ inner.node.pieces := rfl

theorem pieces_methodCall (method : Name) (given : List (Spanned Expr)) :
    (methodCall receiver method given).pieces =
      parenthesized (receiver.node.power < operandPower) receiver.node.pieces ++
        [sign .dot, ident method.node] ++ parens (given.map fun expr => expr.node.pieces) := by
  rw [← exprPieces_eq]
  rfl

theorem pieces_field (name : Name) :
    (field receiver name).pieces =
      parenthesized (receiver.node.power < operandPower) receiver.node.pieces ++
        [sign .dot, ident name.node] := rfl

theorem pieces_index :
    (index receiver inner).pieces =
      parenthesized (receiver.node.power < operandPower) receiver.node.pieces ++
        [sign .leftBracket] ++ inner.node.pieces ++ [sign .rightBracket] := rfl

theorem pieces_state (moment : Moment) :
    (state receiver moment).pieces =
      parenthesized (receiver.node.power < operandPower) receiver.node.pieces ++
        [sign .dot, word moment.word] := rfl

theorem pieces_call (function : Name) (given : List (Spanned Expr)) :
    (call function given).pieces =
      [ident function.node] ++ parens (given.map fun expr => expr.node.pieces) := by
  rw [← exprPieces_eq]
  rfl

theorem pieces_variantOf (enumeration chosen : Name) (given : List (Spanned Expr)) :
    (variant enumeration chosen (some given)).pieces =
      variantPieces enumeration.node chosen.node ++
        parens (given.map fun expr => expr.node.pieces) := by
  rw [← exprPieces_eq]
  rfl

theorem pieces_construct (struct : Name) (fields : List FieldValue) :
    (construct struct fields).pieces =
      [word .new, space, ident struct.node, space] ++ braces (fields.map FieldValue.pieces) := by
  rw [← fieldPieces_eq]
  rfl

theorem pieces_array (elements : List (Spanned Expr)) :
    (array elements).pieces =
      [sign .leftBracket] ++ commas (elements.map fun expr => expr.node.pieces) ++
        [sign .rightBracket] := by
  rw [← exprPieces_eq]
  rfl

theorem pieces_paren :
    (paren inner).pieces = [sign .leftParen] ++ inner.node.pieces ++ [sign .rightParen] := rfl

/-- A block with anything in it has a space before its closing brace. -/
theorem pieces_block {statements : List (Spanned Expr)} {last : Option (Spanned Expr)}
    (some : statements ≠ [] ∨ last ≠ none) :
    (block statements last).pieces =
      [sign .leftBrace] ++ itemsPieces statements last ++ [space, sign .rightBrace] := by
  cases last with
  | none =>
    cases statements with
    | nil => exact absurd some (by simp)
    | cons => rfl
  | some last =>
    simp only [itemsPieces, List.append_assoc]
    simp [Expr.pieces]

end Expr

theorem Ty.pieces_refined (base : Primitive) (constraints : List (Spanned Expr)) :
    (Ty.refined base constraints).pieces =
      [word base.word] ++ braces (constraints.map fun expr => expr.node.pieces) := by
  rw [← exprPieces_eq]
  rfl

theorem statementPieces_cons (statement : Spanned Expr) (others : List (Spanned Expr)) :
    statementPieces (statement :: others) =
      [space] ++ statement.node.pieces ++ [sign .semicolon] ++ statementPieces others := rfl

/-- A block is printed as its statements and its value between braces. -/
theorem Expr.tokens_block (statements : List (Spanned Expr)) (last : Option (Spanned Expr)) :
    tokens (Expr.block statements last).pieces =
      .symbol .leftBrace :: (tokens (itemsPieces statements last) ++ [.symbol .rightBrace]) := by
  cases last with
  | none => cases statements <;> simp [Expr.pieces, itemsPieces, statementPieces]
  | some last => simp [Expr.pieces, itemsPieces]

theorem MatchArm.pieces_mk (pattern : Spanned Pattern) (body : Spanned Expr) :
    (MatchArm.mk pattern body).pieces =
      pattern.node.pieces ++ [space, sign .fatArrow, space] ++ body.node.pieces := rfl

theorem FieldValue.pieces_mk (field : Name) (value : Spanned Expr) :
    (FieldValue.mk field value).pieces = [ident field.node, sign .colon, space] ++ value.node.pieces :=
  rfl

/-! ### How tightly phrases bind -/

/-- How tightly the tree of a phrase binds. -/
def Phrase.Binds : (phrase : Phrase) → phrase.Tree → Prop
  | tier power, tree => min power unaryPower ≤ tree.node.power
  | signed, tree => unaryPower ≤ tree.node.power
  | suffixed, tree | primary, tree => tree.node.power = operandPower
  | _, _ => True

theorem power_int {digits : String} {value : Int64} (read : readInt64? digits = some value) :
    (Expr.int value).power = operandPower := by
  have positive : ¬ value < 0 := Int64.not_lt.mpr (nonneg_of_readInt64? read)
  rw [Expr.power, if_neg positive]

/-- The tree of a phrase binds as tightly as its place demands. -/
theorem Derives.binds {phrase : Phrase} {tokens : Tokens} {tree : phrase.Tree} {height : Nat}
    (derived : Derives phrase tokens tree height) : phrase.Binds tree := by
  induction derived with
  | int read => exact power_int read
  | float | string | true | false | ret | it | unit | paren | array | construct | var | call | variant
  | variantOf => rfl
  | operand _ binds => exact binds
  | state | member | methodCall | index => rfl
  | unsigned _ binds =>
    exact Nat.le_of_lt (Nat.lt_of_lt_of_eq (by decide : unaryPower < operandPower) binds.symm)
  | least => exact Nat.le_refl unaryPower
  | unary => exact Nat.le_refl _
  | single power _ binds => exact Nat.le_trans (Nat.min_le_right _ _) binds
  | binary operator tight => exact Nat.le_trans (Nat.min_le_left _ _) tight
  | _ => trivial

section Operands

variable {tokens : Tokens} {operand : Spanned Expr} {height : Nat}

theorem Derives.unparenthesized_left {operator : BinaryOperator}
    (derived : Derives (.tier operator.power) tokens operand height) :
    parenthesized (operand.node.power < operator.power) operand.node.pieces =
      operand.node.pieces := by
  have binds : min operator.power unaryPower ≤ operand.node.power := derived.binds
  have infixes : operator.power ≤ unaryPower := Nat.le_succ_of_le operator.power_le
  rw [Nat.min_eq_left infixes] at binds
  rw [decide_eq_false (Nat.not_lt.mpr binds), parenthesized_false]

theorem Derives.unparenthesized_right {operator : BinaryOperator}
    (derived : Derives (.tier (operator.power + 1)) tokens operand height) :
    parenthesized (operand.node.power ≤ operator.power) operand.node.pieces =
      operand.node.pieces := by
  have binds : min (operator.power + 1) unaryPower ≤ operand.node.power := derived.binds
  have infixes : operator.power + 1 ≤ unaryPower := Nat.succ_le_succ operator.power_le
  rw [Nat.min_eq_left infixes] at binds
  rw [decide_eq_false (Nat.not_le.mpr binds), parenthesized_false]

theorem Derives.unparenthesized_operand (derived : Derives .signed tokens operand height) :
    parenthesized (operand.node.power < unaryPower) operand.node.pieces = operand.node.pieces := by
  have binds : unaryPower ≤ operand.node.power := derived.binds
  rw [decide_eq_false (Nat.not_lt.mpr binds), parenthesized_false]

theorem Derives.unparenthesized_receiver (derived : Derives .suffixed tokens operand height) :
    parenthesized (operand.node.power < operandPower) operand.node.pieces =
      operand.node.pieces := by
  have binds : operand.node.power = operandPower := derived.binds
  rw [binds]
  rfl

end Operands

end ContractSyntax
