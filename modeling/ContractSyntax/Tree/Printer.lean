/-
**Printing trees as source text.**

An operand that binds less tightly than its place demands is put into parentheses, and nothing else
is. The left operand of an infix operator may bind as tightly as the operator, since operators of
one tier group to the left; the right one has to bind more tightly.
-/

import ContractSyntax.Tree.Item
import ContractSyntax.Tree.Piece

namespace ContractSyntax

open Piece

namespace BinaryOperator

/-- The operator as a piece. -/
def piece (operator : BinaryOperator) : Piece := .token operator.token

end BinaryOperator

namespace UnaryOperator

/-- The operator with the gap, if any, that precedes its operand. -/
def pieces : UnaryOperator → List Piece
  | negate => [sign .minus]
  | not => [word .not_, space]
  | reference => [sign .ampersand]
  | mutableReference => [sign .ampersand, word .mut_, space]
  | dereference => [sign .star]

end UnaryOperator

namespace Moment

/-- The reserved word of the moment. -/
def word : Moment → Keyword
  | pre => .pre
  | post => .post

end Moment

namespace PatternLiteral

/-- The literal as it is written. -/
def pieces : PatternLiteral → List Piece
  | int value => Piece.int value.toInt
  | float value => Piece.float value
  | string content => [token (.string content)]
  | bool value => [Piece.bool value]

end PatternLiteral

/-- An enumeration with one of its variants. -/
def variantPieces (enumeration variant : String) : List Piece :=
  [ident enumeration, sign .colonColon, ident variant]

namespace Pattern

/-- The pattern as it is written. -/
def pieces : Pattern → List Piece
  | wildcard => [word .underscore]
  | bind bound => [ident bound]
  | literal value => value.pieces
  | variant enumeration chosen none => variantPieces enumeration.node chosen.node
  | variant enumeration chosen (some bindings) =>
    variantPieces enumeration.node chosen.node ++
      parens (bindings.map fun binding => [ident binding.node])

end Pattern

mutual

/-- The expression as it is written. -/
def Expr.pieces : Expr → List Piece
  | .int value => Piece.int value.toInt
  | .float value => Piece.float value
  | .string content => [token (.string content)]
  | .bool value => [Piece.bool value]
  | .unit => [sign .leftParen, sign .rightParen]
  | .var bound => [ident bound]
  | .ret => [word .ret]
  | .it => [word .it]
  | .binary ⟨left, _⟩ operator ⟨right, _⟩ =>
    parenthesized (left.power < operator.power) left.pieces ++
      [space, operator.piece, space] ++
      parenthesized (right.power ≤ operator.power) right.pieces
  | .unary operator ⟨operand, _⟩ =>
    operator.pieces ++ parenthesized (operand.power < unaryPower) operand.pieces
  | .conditional ⟨condition, _⟩ ⟨yes, _⟩ ⟨no, _⟩ =>
    [word .if_, space] ++ condition.pieces ++ [space, word .then_, space] ++ yes.pieces ++
      [space, word .else_, space] ++ no.pieces
  | .binding isMutable bound type ⟨value, _⟩ ⟨body, _⟩ =>
    [word .let_, space] ++ (if isMutable then [word .mut_, space] else []) ++ [ident bound.node] ++
      (match type with
      | none => []
      | some ⟨type, _⟩ => [sign .colon, space] ++ type.pieces) ++
      [space, sign .equal, space] ++ value.pieces ++ [sign .semicolon, space] ++ body.pieces
  | .matching ⟨subject, _⟩ arms =>
    [word .match_, space] ++ subject.pieces ++ [space] ++ wideBraces (armPieces arms)
  | .whileLoop ⟨condition, _⟩ ⟨body, _⟩ =>
    [word .while_, space] ++ condition.pieces ++ [space] ++ braces [body.pieces]
  | .forLoop bound ⟨range, _⟩ ⟨body, _⟩ =>
    [word .for_, space, ident bound.node, space, word .in_, space] ++ range.pieces ++ [space] ++
      braces [body.pieces]
  | .block statements none =>
    match statements with
    | [] => [sign .leftBrace, sign .rightBrace]
    | statements =>
      [sign .leftBrace] ++ statementPieces statements ++ [space, sign .rightBrace]
  | .block statements (some ⟨last, _⟩) =>
    [sign .leftBrace] ++ statementPieces statements ++ [space] ++ last.pieces ++
      [space, sign .rightBrace]
  | .assign bound ⟨value, _⟩ => [ident bound.node, space, sign .equal, space] ++ value.pieces
  | .methodCall ⟨receiver, _⟩ method given =>
    parenthesized (receiver.power < operandPower) receiver.pieces ++
      [sign .dot, ident method.node] ++ parens (exprPieces given)
  | .field ⟨receiver, _⟩ field =>
    parenthesized (receiver.power < operandPower) receiver.pieces ++ [sign .dot, ident field.node]
  | .index ⟨receiver, _⟩ ⟨position, _⟩ =>
    parenthesized (receiver.power < operandPower) receiver.pieces ++
      [sign .leftBracket] ++ position.pieces ++ [sign .rightBracket]
  | .state ⟨receiver, _⟩ moment =>
    parenthesized (receiver.power < operandPower) receiver.pieces ++ [sign .dot, word moment.word]
  | .call function given => [ident function.node] ++ parens (exprPieces given)
  | .variant enumeration variant none => variantPieces enumeration.node variant.node
  | .variant enumeration variant (some given) =>
    variantPieces enumeration.node variant.node ++ parens (exprPieces given)
  | .construct struct fields =>
    [word .new, space, ident struct.node, space] ++ braces (fieldPieces fields)
  | .array elements =>
    [sign .leftBracket] ++ commas (exprPieces elements) ++ [sign .rightBracket]
  | .paren ⟨inner, _⟩ => [sign .leftParen] ++ inner.pieces ++ [sign .rightParen]

/-- The type as it is written. -/
def Ty.pieces : Ty → List Piece
  | .primitive base => [word base.word]
  | .unit => [sign .leftParen, sign .rightParen]
  | .reference target => [sign .ampersand] ++ target.pieces
  | .mutableReference target => [sign .ampersand, word .mut_, space] ++ target.pieces
  | .array element length =>
    [sign .leftBracket] ++ element.pieces ++ [sign .semicolon, space] ++ Piece.int length.toNat ++
      [sign .rightBracket]
  | .refined base constraints => [word base.word] ++ braces (exprPieces constraints)
  | .named type => [ident type]

/-- Each expression of a list. -/
def exprPieces : List (Spanned Expr) → List (List Piece)
  | [] => []
  | ⟨expr, _⟩ :: rest => expr.pieces :: exprPieces rest

/-- Each statement of a block after a space and before a semicolon. -/
def statementPieces : List (Spanned Expr) → List Piece
  | [] => []
  | ⟨statement, _⟩ :: rest =>
    [space] ++ statement.pieces ++ [sign .semicolon] ++ statementPieces rest

/-- The alternative of a `match` as it is written. -/
def MatchArm.pieces : MatchArm → List Piece
  | .mk pattern ⟨body, _⟩ =>
    pattern.node.pieces ++ [space, sign .fatArrow, space] ++ body.pieces

/-- Each alternative of a `match`. -/
def armPieces : List MatchArm → List (List Piece)
  | [] => []
  | arm :: rest => arm.pieces :: armPieces rest

/-- The field of a new structure as it is written. -/
def FieldValue.pieces : FieldValue → List Piece
  | .mk field ⟨value, _⟩ => [ident field.node, sign .colon, space] ++ value.pieces

/-- Each field of a new structure. -/
def fieldPieces : List FieldValue → List (List Piece)
  | [] => []
  | field :: rest => field.pieces :: fieldPieces rest

end

/-- An optional list of expressions in parentheses. -/
def argumentPieces : Option (List (Spanned Expr)) → List Piece
  | none => []
  | some given => parens (exprPieces given)

/-- The condition of a contract after its label. -/
def Condition.pieces (condition : Condition) : List Piece :=
  (match condition.label with
  | none => []
  | some label => [ident label.node, sign .colon, space]) ++ condition.condition.node.pieces

namespace Contract

/-- The contract as it is written. -/
def pieces : Contract → List Piece
  | conditions list => [word .where_, space] ++ braces (list.map Condition.pieces)
  | clauses pre post =>
    separated [space] <|
      (pre.toList.map fun pre => [word .pre, space] ++ pre.node.pieces) ++
        post.toList.map fun post => [word .post, space] ++ post.node.pieces

end Contract

/-- The attribute as it is written. -/
def Attribute.pieces (mark : Attribute) : List Piece :=
  [sign .at_, ident mark.name.node] ++ argumentPieces mark.arguments

/-- The attributes of a definition, a line each, and its visibility. -/
def headerPieces (attributes : List Attribute) (visibility : Visibility) : List Piece :=
  attributes.flatMap (fun mark => mark.pieces ++ [newline]) ++
    match visibility with
    | .hidden => []
    | .shown => [word .pub, space]

/-- A name and its type as they are written. -/
def TypedName.pieces (typed : TypedName) : List Piece :=
  [ident typed.name.node, sign .colon, space] ++ typed.type.node.pieces

/-- The variant of an enumeration as it is written. -/
def Variant.pieces (variant : Variant) : List Piece :=
  ident variant.name.node ::
    match variant.parts with
    | none => []
    | some parts => parens (parts.map fun part => part.node.pieces)

namespace Item

/-- The definition as it is written. -/
def pieces : Item → List Piece
  | use item =>
    [word .use, space] ++
      separated [sign .colonColon] (item.path.map fun part => [ident part.node]) ++
      [sign .semicolon]
  | struct item =>
    headerPieces item.attributes item.visibility ++
      [word .struct, space, ident item.name.node, space] ++
      braces (item.fields.map TypedName.pieces)
  | enum item =>
    headerPieces item.attributes item.visibility ++
      [word .enum, space, ident item.name.node, space] ++ braces (item.variants.map Variant.pieces)
  | function item =>
    headerPieces item.attributes item.visibility ++
      [word .fn, space, ident item.name.node] ++
      parens (item.parameters.map TypedName.pieces) ++ [space, sign .arrow, space] ++
      (match item.resultName with
      | none => []
      | some result => [ident result.node, sign .colon, space]) ++
      item.resultType.node.pieces ++
      (match item.contract with
      | none => []
      | some contract => space :: contract.pieces) ++
      [space, sign .equal, space] ++ item.body.node.pieces ++ [sign .semicolon]

end Item

/-- The definitions, each on a line of its own. -/
def Program.pieces (program : Program) : List Piece :=
  program.items.flatMap fun item => item.pieces ++ [newline]

/-! ### Source text -/

/-- The source text of an expression. -/
def Expr.text (expr : Expr) : String := render expr.pieces

/-- The source text of a type. -/
def Ty.text (type : Ty) : String := render type.pieces

/-- The source text of a pattern. -/
def Pattern.text (pattern : Pattern) : String := render pattern.pieces

/-- The source text of an alternative of a `match`. -/
def MatchArm.text (arm : MatchArm) : String := render arm.pieces

/-- The source text of a contract. -/
def Contract.text (contract : Contract) : String := render contract.pieces

/-- The source text of an attribute. -/
def Attribute.text (mark : Attribute) : String := render mark.pieces

/-- The source text of a definition. -/
def Item.text (item : Item) : String := render item.pieces

/-- The source text of a program. -/
def Program.text (program : Program) : String := render program.pieces

end ContractSyntax
