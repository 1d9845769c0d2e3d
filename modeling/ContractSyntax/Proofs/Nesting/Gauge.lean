/-
**Measuring trees.**

What hangs below the root of a tree is measured along the longest way down, where each part counts one
more than what is below it. How operators, suffixes and assignments measure is left open: counting
nodes and counting the levels of nesting that reading a tree opens differ in just these.

* `Gauge.nodes`, `Gauge.levels`: the two ways of counting;
* `Expr.gauged`, `Ty.gauged`: what is below the root of an expression or a type;
* `Item.gauged`, `Program.gauged`: what is in a definition or a program.
-/

import ContractSyntax.Proofs.Derivation.Item

namespace ContractSyntax

/-- How a tree is measured, where that is not as high as the highest of its parts. -/
structure Gauge where
  /-- An infix operator, by what is below its operands. -/
  operator : Nat → Nat → Nat
  /-- A suffix, by what is below its receiver and the highest of its arguments. -/
  suffix : Nat → Nat → Nat
  /-- A new value for a variable, by what is below the value. -/
  assign : Nat → Nat

namespace Gauge

/-- Every expression and every type counts one on each way down. -/
def nodes : Gauge where
  operator left right := max (left + 1) (right + 1)
  suffix receiver given := max (receiver + 1) given
  assign value := value + 1

/-- The levels that reading opens: a link of a chain stands on all that was read of the chain, and an
assignment takes the level of its value. -/
def levels : Gauge where
  operator left right := left + 1 + right
  suffix receiver given := receiver + 1 + given
  assign value := value

end Gauge

mutual

/-- What is below an expression. -/
def Expr.gauged (gauge : Gauge) : Expr → Nat
  | .int _ | .float _ | .string _ | .bool _ | .unit | .var _ | .ret | .it => 0
  | .binary ⟨left, _⟩ _ ⟨right, _⟩ => gauge.operator (left.gauged gauge) (right.gauged gauge)
  | .unary _ ⟨inner, _⟩ | .paren ⟨inner, _⟩ => inner.gauged gauge + 1
  | .conditional ⟨condition, _⟩ ⟨yes, _⟩ ⟨no, _⟩ =>
    max (condition.gauged gauge + 1) (max (yes.gauged gauge + 1) (no.gauged gauge + 1))
  | .binding _ _ none ⟨value, _⟩ ⟨body, _⟩ =>
    max 0 (max (value.gauged gauge + 1) (body.gauged gauge + 1))
  | .binding _ _ (some ⟨type, _⟩) ⟨value, _⟩ ⟨body, _⟩ =>
    max (type.gauged gauge + 1) (max (value.gauged gauge + 1) (body.gauged gauge + 1))
  | .matching ⟨subject, _⟩ arms => max (subject.gauged gauge + 1) (gaugedArms gauge arms)
  | .whileLoop ⟨condition, _⟩ ⟨body, _⟩ => max (condition.gauged gauge + 1) (body.gauged gauge + 1)
  | .forLoop _ ⟨range, _⟩ ⟨body, _⟩ => max (range.gauged gauge + 1) (body.gauged gauge + 1)
  | .block statements none => max (gaugedExprs gauge statements) 0
  | .block statements (some ⟨last, _⟩) => max (gaugedExprs gauge statements) (last.gauged gauge + 1)
  | .assign _ ⟨value, _⟩ => gauge.assign (value.gauged gauge)
  | .methodCall ⟨receiver, _⟩ _ given =>
    gauge.suffix (receiver.gauged gauge) (gaugedExprs gauge given)
  | .field ⟨receiver, _⟩ _ | .state ⟨receiver, _⟩ _ => gauge.suffix (receiver.gauged gauge) 0
  | .index ⟨receiver, _⟩ ⟨position, _⟩ =>
    gauge.suffix (receiver.gauged gauge) (position.gauged gauge + 1)
  | .variant _ _ none => 0
  | .variant _ _ (some given) | .call _ given | .array given => gaugedExprs gauge given
  | .construct _ fields => gaugedFields gauge fields

/-- What is below a type. -/
def Ty.gauged (gauge : Gauge) : Ty → Nat
  | .primitive _ | .unit | .named _ => 0
  | .reference target | .mutableReference target => target.gauged gauge + 1
  | .array element _ => element.gauged gauge + 1
  | .refined _ constraints => gaugedExprs gauge constraints

/-- The highest of some expressions. -/
def gaugedExprs (gauge : Gauge) : List (Spanned Expr) → Nat
  | [] => 0
  | ⟨expr, _⟩ :: rest => max (expr.gauged gauge + 1) (gaugedExprs gauge rest)

/-- An alternative, by its value. -/
def MatchArm.gauged (gauge : Gauge) : MatchArm → Nat
  | .mk _ ⟨body, _⟩ => body.gauged gauge + 1

/-- The highest of some alternatives. -/
def gaugedArms (gauge : Gauge) : List MatchArm → Nat
  | [] => 0
  | arm :: rest => max (arm.gauged gauge) (gaugedArms gauge rest)

/-- A field, by its value. -/
def FieldValue.gauged (gauge : Gauge) : FieldValue → Nat
  | .mk _ ⟨value, _⟩ => value.gauged gauge + 1

/-- The highest of some fields. -/
def gaugedFields (gauge : Gauge) : List FieldValue → Nat
  | [] => 0
  | field :: rest => max (field.gauged gauge) (gaugedFields gauge rest)

end

/-- The highest of some trees. -/
def gaugedAll {α : Type} (measure : α → Nat) (values : List α) : Nat := highest (values.map measure)

section Trees

variable (gauge : Gauge)

/-- An expression with its root. -/
def exprGauged (expr : Spanned Expr) : Nat := expr.node.gauged gauge + 1

/-- A type with its root. -/
def typeGauged (type : Spanned Ty) : Nat := type.node.gauged gauge + 1

/-- A contract, by its conditions. -/
def Contract.gauged : Contract → Nat
  | conditions list => gaugedAll (fun condition => exprGauged gauge condition.condition) list
  | clauses pre post =>
    max (gaugedAll (exprGauged gauge) pre.toList) (gaugedAll (exprGauged gauge) post.toList)

/-- An attribute, by its arguments. -/
def Attribute.gauged (mark : Attribute) : Nat :=
  gaugedAll (exprGauged gauge) (mark.arguments.getD [])

/-- A variant, by its parts. -/
def Variant.gauged (variant : Variant) : Nat :=
  gaugedAll (typeGauged gauge) (variant.parts.getD [])

/-- A name and its type. -/
def TypedName.gauged (typed : TypedName) : Nat := typeGauged gauge typed.type

/-- A definition, by the expressions and types in it. -/
def Item.gauged : Item → Nat
  | use _ => 0
  | struct item =>
    max (gaugedAll (Attribute.gauged gauge) item.attributes)
      (gaugedAll (TypedName.gauged gauge) item.fields)
  | enum item =>
    max (gaugedAll (Attribute.gauged gauge) item.attributes)
      (gaugedAll (Variant.gauged gauge) item.variants)
  | function item =>
    max (gaugedAll (Attribute.gauged gauge) item.attributes)
      (max (gaugedAll (TypedName.gauged gauge) item.parameters)
        (max (typeGauged gauge item.resultType)
          (max (gaugedAll (Contract.gauged gauge) item.contract.toList)
            (exprGauged gauge item.body))))

/-- A program, by its definitions. -/
def Program.gauged (program : Program) : Nat := gaugedAll (Item.gauged gauge) program.items

/-- What a phrase stands for. A phrase that opens a level of its own counts its root. -/
def Phrase.gauged : (phrase : Phrase) → phrase.Tree → Nat
  | .expr, tree | .tier _, tree | .signed, tree | .suffixed, tree | .primary, tree
  | .binding _, tree => tree.node.gauged gauge
  | .subexpr, tree | .rest _ _, tree => exprGauged gauge tree
  | .field, tree | .arm, tree => tree.gauged gauge
  | .type, tree => tree.node.gauged gauge
  | .subtype, tree => typeGauged gauge tree
  | .stated, tree => gaugedAll (typeGauged gauge) tree.toList
  | .items _, (statements, last) =>
    max (gaugedAll (exprGauged gauge) statements) (gaugedAll (exprGauged gauge) last.toList)

end Trees

/-! ### Measures of parts -/

variable {gauge : Gauge}

theorem gaugedExprs_eq (exprs : List (Spanned Expr)) :
    gaugedExprs gauge exprs = gaugedAll (exprGauged gauge) exprs := by
  induction exprs with
  | nil => rfl
  | cons expr rest continued => rw [gaugedExprs, continued]; rfl

theorem gaugedArms_eq (arms : List MatchArm) :
    gaugedArms gauge arms = gaugedAll (MatchArm.gauged gauge) arms := by
  induction arms with
  | nil => rfl
  | cons arm rest continued => rw [gaugedArms, continued]; rfl

theorem gaugedFields_eq (fields : List FieldValue) :
    gaugedFields gauge fields = gaugedAll (FieldValue.gauged gauge) fields := by
  induction fields with
  | nil => rfl
  | cons field rest continued => rw [gaugedFields, continued]; rfl

/-- A binding is as high as the highest of its parts. -/
theorem gauged_binding (isMutable : Bool) (name : Name) (type : Option (Spanned Ty))
    (value body : Spanned Expr) :
    (Expr.binding isMutable name type value body).gauged gauge =
      max (Phrase.stated.gauged gauge type) (max (exprGauged gauge value) (exprGauged gauge body)) := by
  cases type with
  | none => rfl
  | some type => exact congrArg (max · _) (Nat.max_zero _).symm

/-- A block is as high as the highest of its parts. -/
theorem gauged_block (next : Nat) (statements : List (Spanned Expr)) (last : Option (Spanned Expr)) :
    (Expr.block statements last).gauged gauge = (Phrase.items next).gauged gauge (statements, last) := by
  cases last with
  | none => rw [Expr.gauged, gaugedExprs_eq]; rfl
  | some last =>
    rw [Expr.gauged, gaugedExprs_eq]
    exact congrArg (max _) (Nat.max_zero _).symm

/-- A contract of clauses is as high as the higher of them, even if there is none. -/
theorem gauged_ofClauses (pre post : Option (Spanned Expr)) :
    gaugedAll (Contract.gauged gauge) (Contract.ofClauses pre post).toList =
      max (gaugedAll (exprGauged gauge) pre.toList) (gaugedAll (exprGauged gauge) post.toList) := by
  cases pre <;> cases post <;> first | rfl | exact Nat.max_zero _

end ContractSyntax
