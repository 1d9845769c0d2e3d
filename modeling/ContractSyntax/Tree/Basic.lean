/-
**Syntax trees of expressions, types, patterns and contracts.**

Types and expressions refer to each other: a refinement holds expressions, and a binding may state a
type. A part that has a place of its own in the text is `Spanned`. A list that may be left out
together with its parentheses is an `Option`, so that `E::V` and `E::V()` are different trees.
-/

import ContractSyntax.Decimal.Binary64
import ContractSyntax.Span
import ContractSyntax.Tree.Operator
import ContractSyntax.Tree.Primitive

namespace ContractSyntax

/-- Whether a contract speaks of the state before or after the call. -/
inductive Moment where
  | pre | post
  deriving DecidableEq, Inhabited, Repr

/-- A literal that a value is matched against. -/
inductive PatternLiteral where
  | int (value : Int64)
  | float (value : Binary64)
  | string (content : String)
  | bool (value : Bool)
  deriving DecidableEq, Inhabited

/-- What the value of a `match` is compared with. -/
inductive Pattern where
  | wildcard
  /-- Any value, under a name. -/
  | bind (name : String)
  | literal (value : PatternLiteral)
  /-- A variant of an enumeration, with names for its parts where parentheses were written. -/
  | variant (enumeration variant : Name) (bindings : Option (List Name))
  deriving DecidableEq, Inhabited

mutual

/-- An expression. -/
inductive Expr where
  | int (value : Int64)
  | float (value : Binary64)
  | string (content : String)
  | bool (value : Bool)
  | unit
  | var (name : String)
  /-- The value that a function returns. -/
  | ret
  /-- The value that a refinement constrains. -/
  | it
  | binary (left : Spanned Expr) (operator : BinaryOperator) (right : Spanned Expr)
  | unary (operator : UnaryOperator) (operand : Spanned Expr)
  | conditional (condition yes no : Spanned Expr)
  | binding (isMutable : Bool) (name : Name) (type : Option (Spanned Ty))
      (value body : Spanned Expr)
  | matching (subject : Spanned Expr) (arms : List MatchArm)
  | whileLoop (condition body : Spanned Expr)
  | forLoop (name : Name) (range body : Spanned Expr)
  /-- Statements, then the value of the block, which is unit if there is no last expression. -/
  | block (statements : List (Spanned Expr)) (last : Option (Spanned Expr))
  /-- A new value for a variable; a statement of a block. -/
  | assign (name : Name) (value : Spanned Expr)
  | methodCall (receiver : Spanned Expr) (method : Name) (arguments : List (Spanned Expr))
  | field (receiver : Spanned Expr) (name : Name)
  | index (receiver position : Spanned Expr)
  /-- The value that an expression has at one moment of a call. -/
  | state (receiver : Spanned Expr) (moment : Moment)
  | call (function : Name) (arguments : List (Spanned Expr))
  | variant (enumeration variant : Name) (arguments : Option (List (Spanned Expr)))
  | construct (name : Name) (fields : List FieldValue)
  | array (elements : List (Spanned Expr))
  | paren (inner : Spanned Expr)

/-- One alternative of a `match`. -/
inductive MatchArm where
  | mk (pattern : Spanned Pattern) (body : Spanned Expr)

/-- The value of one field of a new structure. -/
inductive FieldValue where
  | mk (name : Name) (value : Spanned Expr)

/-- A type. -/
inductive Ty where
  | primitive (base : Primitive)
  | unit
  | reference (target : Ty)
  | mutableReference (target : Ty)
  | array (element : Ty) (length : UInt64)
  /-- The values of a built-in type that satisfy every constraint. -/
  | refined (base : Primitive) (constraints : List (Spanned Expr))
  | named (name : String)

end

instance : Inhabited Expr := ⟨.unit⟩
instance : Inhabited Ty := ⟨.unit⟩

namespace Expr

/-- Whether the expression starts with a word or brace that opens a construct reaching as far to
the right as it can. Such an expression is no bare operand. -/
def isControl : Expr → Bool
  | conditional .. | binding .. | matching .. | whileLoop .. | forLoop .. | block .. => true
  | _ => false

/-- How tightly the expression binds as it is written. A negative number is written with a sign. -/
def power : Expr → Nat
  | binary _ operator _ => operator.power
  | unary .. => unaryPower
  | int value => if value < 0 then unaryPower else operandPower
  | assign .. => 0
  | expr => if expr.isControl then 0 else operandPower

/-- The binding power of the operator at the root. -/
def rootPower? : Expr → Option Nat
  | binary _ operator _ => some operator.power
  | _ => none

end Expr

namespace Ty

/-- The built-in type, refined or not. -/
def basePrimitive? : Ty → Option Primitive
  | primitive base => some base
  | refined base _ => some base
  | _ => none

/-- Whether every value of the underlying type belongs: there is no constraint. -/
def isUnconstrained : Ty → Bool
  | refined _ constraints => constraints.isEmpty
  | _ => true

end Ty

/-- One condition of a contract, under a label or without. -/
structure Condition where
  label : Option Name
  condition : Spanned Expr

/-- What a function requires and promises. -/
inductive Contract where
  | conditions (list : List Condition)
  /-- A condition on entry and one on exit. -/
  | clauses (pre post : Option (Spanned Expr))

end ContractSyntax
