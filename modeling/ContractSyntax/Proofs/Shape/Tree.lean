/-
**Trees in shape.**

The types of trees admit more than reading ever gives: any text can stand as a name, any expression as
an operand. A tree is in shape if none of this is used. What an operator or a suffix demands of its
operands is left open, since trees that were not read differ from trees that were in just this: an
operand that binds too weakly for its place is written in parentheses.

* `IsName`, `IsIntLiteral`, `Binary64.IsLiteral`: names and numbers that can be written;
* `Demand.bare`: operands that need no parentheses;
* `Expr.Shaped`, `Ty.Shaped`: expressions and types in shape;
* `Item.Shaped`, `Program.Shaped`: definitions and programs in shape.
-/

import ContractSyntax.Proofs.Lexing.Token
import ContractSyntax.Tree.Item

namespace ContractSyntax

/-! ### Names and literals -/

/-- Whether a text is a word that is not reserved. -/
def IsName (text : String) : Prop := IsWord text ∧ isReserved text = false

theorem isName_iff {text : String} : IsName text ↔ (Token.ident text).WellFormed :=
  and_congr_right fun _ => Option.isSome_eq_false_iff.trans Option.isNone_iff_eq_none

instance (text : String) : Decidable (IsWord text) :=
  decidable_of_iff
    ((text.toList.head?.any startsWord && text.toList.tail.all continuesWord) = true) <| by
      unfold IsWord
      cases text.toList with
      | nil => simp
      | cons first rest =>
        simp only [List.head?_cons, Option.any_some, List.tail_cons, Bool.and_eq_true,
          List.all_eq_true, List.cons.injEq]
        exact ⟨fun both => ⟨_, _, ⟨rfl, rfl⟩, both⟩, by rintro ⟨_, _, ⟨rfl, rfl⟩, both⟩; exact both⟩

instance (text : String) : Decidable (IsName text) :=
  inferInstanceAs (Decidable (IsWord text ∧ isReserved text = false))

/-- Whether a whole number is a literal of an expression: the least one is read with its sign. -/
def IsIntLiteral (value : Int64) : Prop := 0 ≤ value ∨ value = Int64.minValue

/-- Whether a number with a point is a literal: it is finite, and its sign bit is clear. -/
def Binary64.IsLiteral (value : Binary64) : Prop := value.isFinite = true ∧ value.isNegative = false

/-! ### Operands -/

/-- Which expressions may stand where an operand has to bind with some power. -/
abbrev Demand := Nat → Expr → Prop

/-- Only those that bind so tightly by themselves, and no construct that reaches to the right. -/
def Demand.bare : Demand := fun power expr => expr.isControl = false ∧ power ≤ expr.power

/-- An expression that binds at all is no such construct. -/
theorem Demand.bare_of_le {power : Nat} {expr : Expr} (positive : 0 < power)
    (binds : power ≤ expr.power) : bare power expr := by
  refine ⟨?_, binds⟩
  cases expr with
  | conditional | binding | matching | whileLoop | forLoop | block =>
    exact absurd (Nat.lt_of_lt_of_le positive binds) (Nat.lt_irrefl 0)
  | _ => rfl

/-! ### Patterns -/

/-- Whether the literal of a pattern can be written. -/
def PatternLiteral.Shaped : PatternLiteral → Prop
  | int value => 0 ≤ value
  | float value => value.IsLiteral
  | string content => '"' ∉ content.toList
  | bool _ => True

/-- Whether a pattern is in shape. -/
def Pattern.Shaped : Pattern → Prop
  | wildcard => True
  | bind name => IsName name
  | literal value => value.Shaped
  | variant enumeration chosen bindings =>
    IsName enumeration.node ∧ IsName chosen.node ∧
      ∀ names ∈ bindings, ∀ name ∈ names, IsName name.node

/-! ### Expressions and types -/

/-- What an expression is for: a statement of a block, or its value wherever one is asked for. -/
inductive Role where
  | value | statement
  deriving DecidableEq

section Trees

variable (demand : Demand)

mutual

/-- Whether an expression is in shape in a role. Only a statement may be an assignment, and no
statement is a binding: the rest of its block belongs to its body. -/
def Expr.Shaped (role : Role) : Expr → Prop
  | .int value => IsIntLiteral value
  | .float value => value.IsLiteral
  | .string content => '"' ∉ content.toList
  | .bool _ | .unit | .ret | .it => True
  | .var name => IsName name
  | .binary ⟨left, _⟩ operator ⟨right, _⟩ =>
    demand operator.power left ∧ demand (operator.power + 1) right ∧
      left.Shaped .value ∧ right.Shaped .value
  | .unary _ ⟨operand, _⟩ => demand unaryPower operand ∧ operand.Shaped .value
  | .conditional ⟨condition, _⟩ ⟨yes, _⟩ ⟨no, _⟩ =>
    condition.Shaped .value ∧ yes.Shaped .value ∧ no.Shaped .value
  | .binding _ name none ⟨value, _⟩ ⟨body, _⟩ =>
    role = .value ∧ IsName name.node ∧ value.Shaped .value ∧ body.Shaped .value
  | .binding _ name (some ⟨type, _⟩) ⟨value, _⟩ ⟨body, _⟩ =>
    role = .value ∧ IsName name.node ∧ type.Shaped ∧ value.Shaped .value ∧ body.Shaped .value
  | .matching ⟨subject, _⟩ arms => subject.Shaped .value ∧ armsShaped arms
  | .whileLoop ⟨condition, _⟩ ⟨body, _⟩ => condition.Shaped .value ∧ body.Shaped .value
  | .forLoop name ⟨range, _⟩ ⟨body, _⟩ =>
    IsName name.node ∧ range.Shaped .value ∧ body.Shaped .value
  | .block statements none => exprsShaped .statement statements
  | .block statements (some ⟨last, _⟩) => exprsShaped .statement statements ∧ last.Shaped .value
  | .assign name ⟨value, _⟩ => role = .statement ∧ IsName name.node ∧ value.Shaped .value
  | .methodCall ⟨receiver, _⟩ method given =>
    demand operandPower receiver ∧ receiver.Shaped .value ∧ IsName method.node ∧
      exprsShaped .value given
  | .field ⟨receiver, _⟩ name =>
    demand operandPower receiver ∧ receiver.Shaped .value ∧ IsName name.node
  | .index ⟨receiver, _⟩ ⟨position, _⟩ =>
    demand operandPower receiver ∧ receiver.Shaped .value ∧ position.Shaped .value
  | .state ⟨receiver, _⟩ _ => demand operandPower receiver ∧ receiver.Shaped .value
  | .call function given => IsName function.node ∧ exprsShaped .value given
  | .variant enumeration chosen none => IsName enumeration.node ∧ IsName chosen.node
  | .variant enumeration chosen (some given) =>
    IsName enumeration.node ∧ IsName chosen.node ∧ exprsShaped .value given
  | .construct name fields => IsName name.node ∧ fieldsShaped fields
  | .array elements => exprsShaped .value elements
  | .paren ⟨inner, _⟩ => inner.Shaped .value

/-- Whether a type is in shape. A string is refined by nothing. -/
def Ty.Shaped : Ty → Prop
  | .primitive _ | .unit => True
  | .named name => IsName name
  | .reference target | .mutableReference target => target.Shaped
  | .array element _ => element.Shaped
  | .refined base constraints => base ≠ .string ∧ exprsShaped .value constraints

/-- Whether some expressions are in shape in the same role. -/
def exprsShaped (role : Role) : List (Spanned Expr) → Prop
  | [] => True
  | ⟨expr, _⟩ :: rest => expr.Shaped role ∧ exprsShaped role rest

/-- Whether an alternative is in shape. -/
def MatchArm.Shaped : MatchArm → Prop
  | .mk pattern ⟨body, _⟩ => pattern.node.Shaped ∧ body.Shaped .value

/-- Whether some alternatives are in shape. -/
def armsShaped : List MatchArm → Prop
  | [] => True
  | arm :: rest => arm.Shaped ∧ armsShaped rest

/-- Whether a field of a new structure is in shape. -/
def FieldValue.Shaped : FieldValue → Prop
  | .mk name ⟨value, _⟩ => IsName name.node ∧ value.Shaped .value

/-- Whether some fields are in shape. -/
def fieldsShaped : List FieldValue → Prop
  | [] => True
  | field :: rest => field.Shaped ∧ fieldsShaped rest

end

/-! ### Contracts and definitions -/

/-- Whether a condition of a contract is in shape. -/
def Condition.Shaped (condition : Condition) : Prop :=
  (∀ label ∈ condition.label, IsName label.node) ∧ condition.condition.node.Shaped demand .value

/-- Whether a contract is in shape. One of clauses has a clause. -/
def Contract.Shaped : Contract → Prop
  | conditions list => ∀ condition ∈ list, condition.Shaped demand
  | clauses pre post =>
    (pre.isSome ∨ post.isSome) ∧ (∀ condition ∈ pre, condition.node.Shaped demand .value) ∧
      ∀ condition ∈ post, condition.node.Shaped demand .value

/-- Whether an attribute is in shape. -/
def Attribute.Shaped (mark : Attribute) : Prop :=
  IsName mark.name.node ∧ ∀ given ∈ mark.arguments, ∀ expr ∈ given, expr.node.Shaped demand .value

/-- Whether a field or parameter is in shape. -/
def TypedName.Shaped (typed : TypedName) : Prop :=
  IsName typed.name.node ∧ typed.type.node.Shaped demand

/-- Whether a variant is in shape. -/
def Variant.Shaped (variant : Variant) : Prop :=
  IsName variant.name.node ∧ ∀ parts ∈ variant.parts, ∀ type ∈ parts, type.node.Shaped demand

/-- Whether a definition is in shape. A path has a first name. -/
def Item.Shaped : Item → Prop
  | use item => item.path ≠ [] ∧ ∀ name ∈ item.path, IsName name.node
  | struct item =>
    (∀ mark ∈ item.attributes, mark.Shaped demand) ∧ IsName item.name.node ∧
      ∀ field ∈ item.fields, field.Shaped demand
  | enum item =>
    (∀ mark ∈ item.attributes, mark.Shaped demand) ∧ IsName item.name.node ∧
      ∀ variant ∈ item.variants, variant.Shaped demand
  | function item =>
    (∀ mark ∈ item.attributes, mark.Shaped demand) ∧ IsName item.name.node ∧
      (∀ parameter ∈ item.parameters, parameter.Shaped demand) ∧
      (∀ name ∈ item.resultName, IsName name.node) ∧ item.resultType.node.Shaped demand ∧
      (∀ contract ∈ item.contract, contract.Shaped demand) ∧ item.body.node.Shaped demand .value

/-- Whether a program is in shape. -/
def Program.Shaped (program : Program) : Prop := ∀ item ∈ program.items, item.Shaped demand

end Trees

/-! ### Parts of trees in shape -/

section Parts

variable {demand : Demand}

theorem exprsShaped_iff {role : Role} {exprs : List (Spanned Expr)} :
    exprsShaped demand role exprs ↔ ∀ expr ∈ exprs, expr.node.Shaped demand role := by
  induction exprs with
  | nil => exact iff_of_true trivial (List.forall_mem_nil _)
  | cons expr rest continued => rw [exprsShaped, continued, List.forall_mem_cons]

theorem armsShaped_iff {arms : List MatchArm} :
    armsShaped demand arms ↔ ∀ arm ∈ arms, arm.Shaped demand := by
  induction arms with
  | nil => exact iff_of_true trivial (List.forall_mem_nil _)
  | cons arm rest continued => rw [armsShaped, continued, List.forall_mem_cons]

theorem fieldsShaped_iff {fields : List FieldValue} :
    fieldsShaped demand fields ↔ ∀ field ∈ fields, field.Shaped demand := by
  induction fields with
  | nil => exact iff_of_true trivial (List.forall_mem_nil _)
  | cons field rest continued => rw [fieldsShaped, continued, List.forall_mem_cons]

theorem shaped_binding {isMutable : Bool} {name : Name} {type : Option (Spanned Ty)}
    {value body : Spanned Expr} {role : Role} :
    (Expr.binding isMutable name type value body).Shaped demand role ↔
      role = .value ∧ IsName name.node ∧ (∀ stated ∈ type, stated.node.Shaped demand) ∧
        value.node.Shaped demand .value ∧ body.node.Shaped demand .value := by
  cases type <;> simp [Expr.Shaped]

theorem shaped_block {statements : List (Spanned Expr)} {last : Option (Spanned Expr)} {role : Role} :
    (Expr.block statements last).Shaped demand role ↔
      (∀ statement ∈ statements, statement.node.Shaped demand .statement) ∧
        ∀ expr ∈ last, expr.node.Shaped demand .value := by
  cases last <;> simp [Expr.Shaped, exprsShaped_iff]

end Parts

end ContractSyntax
