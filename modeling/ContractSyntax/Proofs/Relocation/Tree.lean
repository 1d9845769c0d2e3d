/-
**Moving spans about.**

A relocation sends every offset to another and never turns two of them round. It acts on whatever
holds spans: tokens, trees, errors and cursors. Moving all offsets forward by the same amount is one
relocation; sending all of them to zero is another, and what is left of a tree then is the tree
without its spans.

* `Span.relocate_merge`: merging spans commutes with moving them;
* `Expr.pieces_relocate`: a moved tree is printed as before.
-/

import ContractSyntax.Parser.Cursor
import ContractSyntax.Tree.Printer

namespace ContractSyntax

/-- A map of offsets that keeps their order. -/
structure Relocation where
  offset : Nat → Nat
  mono : ∀ {first second : Nat}, first ≤ second → offset first ≤ offset second

namespace Relocation

/-- All offsets become zero. -/
def erasure : Relocation := ⟨fun _ => 0, fun _ => Nat.le_refl 0⟩

/-- All offsets grow by the same amount. -/
def forward (amount : Nat) : Relocation :=
  ⟨fun offset => offset + amount, fun less => Nat.add_le_add_right less amount⟩

theorem offset_min (move : Relocation) (first second : Nat) :
    move.offset (min first second) = min (move.offset first) (move.offset second) := by
  rcases Nat.le_total first second with less | less
  · rw [Nat.min_eq_left less, Nat.min_eq_left (move.mono less)]
  · rw [Nat.min_eq_right less, Nat.min_eq_right (move.mono less)]

theorem offset_max (move : Relocation) (first second : Nat) :
    move.offset (max first second) = max (move.offset first) (move.offset second) := by
  rcases Nat.le_total first second with less | less
  · rw [Nat.max_eq_right less, Nat.max_eq_right (move.mono less)]
  · rw [Nat.max_eq_left less, Nat.max_eq_left (move.mono less)]

end Relocation

/-! ### Spans, names and patterns -/

/-- The span with its ends moved. -/
def Span.relocate (move : Relocation) (span : Span) : Span :=
  ⟨move.offset span.start, move.offset span.stop⟩

theorem Span.relocate_merge (move : Relocation) (first second : Span) :
    (first.merge second).relocate move = (first.relocate move).merge (second.relocate move) := by
  simp only [Span.merge, Span.relocate, Relocation.offset_min, Relocation.offset_max]

/-- What can be moved. -/
class Relocate (α : Type) where
  relocate : Relocation → α → α

export Relocate (relocate)

instance : Relocate Span := ⟨Span.relocate⟩
instance : Relocate Unit := ⟨fun _ => id⟩
instance : Relocate Bool := ⟨fun _ => id⟩
instance : Relocate String := ⟨fun _ => id⟩
instance : Relocate Token := ⟨fun _ => id⟩
instance : Relocate UInt64 := ⟨fun _ => id⟩
instance : Relocate Int64 := ⟨fun _ => id⟩
instance : Relocate Binary64 := ⟨fun _ => id⟩
instance : Relocate Visibility := ⟨fun _ => id⟩

section Containers

variable {α β : Type} [Relocate α] [Relocate β]

instance : Relocate (Spanned α) :=
  ⟨fun move place => ⟨relocate move place.node, place.span.relocate move⟩⟩
instance : Relocate (Option α) := ⟨fun move => Option.map (relocate move)⟩
instance : Relocate (List α) := ⟨fun move => List.map (relocate move)⟩
instance : Relocate (α × β) := ⟨fun move pair => (relocate move pair.1, relocate move pair.2)⟩

@[simp] theorem relocate_none (move : Relocation) : relocate move (none : Option α) = none := rfl

@[simp] theorem relocate_some (move : Relocation) (value : α) :
    relocate move (some value) = some (relocate move value) := rfl

@[simp] theorem relocate_nil (move : Relocation) : relocate move ([] : List α) = [] := rfl

@[simp] theorem relocate_cons (move : Relocation) (value : α) (values : List α) :
    relocate move (value :: values) = relocate move value :: relocate move values := rfl

end Containers

/-- The pattern with its spans moved. -/
def Pattern.relocate (move : Relocation) : Pattern → Pattern
  | wildcard => wildcard
  | bind name => bind name
  | literal value => literal value
  | variant enumeration chosen bindings =>
    variant (ContractSyntax.relocate move enumeration) (ContractSyntax.relocate move chosen)
      (ContractSyntax.relocate move bindings)

instance : Relocate Pattern := ⟨Pattern.relocate⟩

/-! ### Expressions and types -/

mutual

/-- The expression with its spans moved. -/
def Expr.relocate (move : Relocation) : Expr → Expr
  | .int value => .int value
  | .float value => .float value
  | .string content => .string content
  | .bool value => .bool value
  | .unit => .unit
  | .var name => .var name
  | .ret => .ret
  | .it => .it
  | .binary ⟨left, first⟩ operator ⟨right, second⟩ =>
    .binary ⟨left.relocate move, first.relocate move⟩ operator
      ⟨right.relocate move, second.relocate move⟩
  | .unary operator ⟨operand, span⟩ =>
    .unary operator ⟨operand.relocate move, span.relocate move⟩
  | .conditional ⟨condition, first⟩ ⟨yes, second⟩ ⟨no, third⟩ =>
    .conditional ⟨condition.relocate move, first.relocate move⟩
      ⟨yes.relocate move, second.relocate move⟩ ⟨no.relocate move, third.relocate move⟩
  | .binding isMutable name none ⟨value, first⟩ ⟨body, second⟩ =>
    .binding isMutable (ContractSyntax.relocate move name) none
      ⟨value.relocate move, first.relocate move⟩ ⟨body.relocate move, second.relocate move⟩
  | .binding isMutable name (some ⟨type, third⟩) ⟨value, first⟩ ⟨body, second⟩ =>
    .binding isMutable (ContractSyntax.relocate move name)
      (some ⟨type.relocate move, third.relocate move⟩)
      ⟨value.relocate move, first.relocate move⟩ ⟨body.relocate move, second.relocate move⟩
  | .matching ⟨subject, span⟩ arms =>
    .matching ⟨subject.relocate move, span.relocate move⟩ (relocateArms move arms)
  | .whileLoop ⟨condition, first⟩ ⟨body, second⟩ =>
    .whileLoop ⟨condition.relocate move, first.relocate move⟩
      ⟨body.relocate move, second.relocate move⟩
  | .forLoop name ⟨range, first⟩ ⟨body, second⟩ =>
    .forLoop (ContractSyntax.relocate move name) ⟨range.relocate move, first.relocate move⟩
      ⟨body.relocate move, second.relocate move⟩
  | .block statements none => .block (relocateExprs move statements) none
  | .block statements (some ⟨last, span⟩) =>
    .block (relocateExprs move statements) (some ⟨last.relocate move, span.relocate move⟩)
  | .assign name ⟨value, span⟩ =>
    .assign (ContractSyntax.relocate move name) ⟨value.relocate move, span.relocate move⟩
  | .methodCall ⟨receiver, span⟩ method given =>
    .methodCall ⟨receiver.relocate move, span.relocate move⟩ (ContractSyntax.relocate move method)
      (relocateExprs move given)
  | .field ⟨receiver, span⟩ name =>
    .field ⟨receiver.relocate move, span.relocate move⟩ (ContractSyntax.relocate move name)
  | .index ⟨receiver, first⟩ ⟨position, second⟩ =>
    .index ⟨receiver.relocate move, first.relocate move⟩
      ⟨position.relocate move, second.relocate move⟩
  | .state ⟨receiver, span⟩ moment =>
    .state ⟨receiver.relocate move, span.relocate move⟩ moment
  | .call function given => .call (ContractSyntax.relocate move function) (relocateExprs move given)
  | .variant enumeration variant none =>
    .variant (ContractSyntax.relocate move enumeration) (ContractSyntax.relocate move variant) none
  | .variant enumeration variant (some given) =>
    .variant (ContractSyntax.relocate move enumeration) (ContractSyntax.relocate move variant)
      (some (relocateExprs move given))
  | .construct name fields =>
    .construct (ContractSyntax.relocate move name) (relocateFields move fields)
  | .array elements => .array (relocateExprs move elements)
  | .paren ⟨inner, span⟩ => .paren ⟨inner.relocate move, span.relocate move⟩

/-- The type with its spans moved. -/
def Ty.relocate (move : Relocation) : Ty → Ty
  | .primitive base => .primitive base
  | .unit => .unit
  | .reference target => .reference (target.relocate move)
  | .mutableReference target => .mutableReference (target.relocate move)
  | .array element length => .array (element.relocate move) length
  | .refined base constraints => .refined base (relocateExprs move constraints)
  | .named name => .named name

/-- The expressions with their spans moved. -/
def relocateExprs (move : Relocation) : List (Spanned Expr) → List (Spanned Expr)
  | [] => []
  | ⟨expr, span⟩ :: rest => ⟨expr.relocate move, span.relocate move⟩ :: relocateExprs move rest

/-- The alternative with its spans moved. -/
def MatchArm.relocate (move : Relocation) : MatchArm → MatchArm
  | .mk pattern ⟨body, span⟩ =>
    .mk (ContractSyntax.relocate move pattern) ⟨body.relocate move, span.relocate move⟩

/-- The alternatives with their spans moved. -/
def relocateArms (move : Relocation) : List MatchArm → List MatchArm
  | [] => []
  | arm :: rest => arm.relocate move :: relocateArms move rest

/-- The field with its spans moved. -/
def FieldValue.relocate (move : Relocation) : FieldValue → FieldValue
  | .mk name ⟨value, span⟩ =>
    .mk (ContractSyntax.relocate move name) ⟨value.relocate move, span.relocate move⟩

/-- The fields with their spans moved. -/
def relocateFields (move : Relocation) : List FieldValue → List FieldValue
  | [] => []
  | field :: rest => field.relocate move :: relocateFields move rest

end

instance : Relocate Expr := ⟨Expr.relocate⟩
instance : Relocate Ty := ⟨Ty.relocate⟩
instance : Relocate MatchArm := ⟨MatchArm.relocate⟩
instance : Relocate FieldValue := ⟨FieldValue.relocate⟩

theorem relocateExprs_eq (move : Relocation) (exprs : List (Spanned Expr)) :
    relocateExprs move exprs = relocate move exprs := by
  induction exprs with
  | nil => rfl
  | cons expr rest continued => rw [relocateExprs, continued]; rfl

theorem relocateArms_eq (move : Relocation) (arms : List MatchArm) :
    relocateArms move arms = relocate move arms := by
  induction arms with
  | nil => rfl
  | cons arm rest continued => rw [relocateArms, continued]; rfl

theorem relocateFields_eq (move : Relocation) (fields : List FieldValue) :
    relocateFields move fields = relocate move fields := by
  induction fields with
  | nil => rfl
  | cons field rest continued => rw [relocateFields, continued]; rfl

@[simp] theorem power_relocate (move : Relocation) (expr : Expr) :
    (expr.relocate move).power = expr.power := by
  cases expr with
  | binding _ _ type => cases type <;> rfl
  | block _ last => cases last <;> rfl
  | variant _ _ given => cases given <;> rfl
  | _ => rfl

theorem Pattern.pieces_relocate (move : Relocation) (pattern : Pattern) :
    (pattern.relocate move).pieces = pattern.pieces := by
  cases pattern with
  | variant enumeration chosen bindings =>
    cases bindings with
    | none => rfl
    | some bindings =>
      simp only [Pattern.relocate, ContractSyntax.relocate, Option.map_some, Pattern.pieces,
        List.map_map]
      rfl
  | _ => rfl

mutual

/-- A moved expression is printed as before. -/
theorem Expr.pieces_relocate (move : Relocation) : (expr : Expr) →
    (expr.relocate move).pieces = expr.pieces
  | .int _ | .float _ | .string _ | .bool _ | .unit | .var _ | .ret | .it => rfl
  | .binary ⟨left, _⟩ _ ⟨right, _⟩ => by
    simp only [Expr.relocate, Expr.pieces, power_relocate, left.pieces_relocate move,
      right.pieces_relocate move]
  | .unary _ ⟨operand, _⟩ => by
    simp only [Expr.relocate, Expr.pieces, power_relocate, operand.pieces_relocate move]
  | .conditional ⟨condition, _⟩ ⟨yes, _⟩ ⟨no, _⟩ => by
    simp only [Expr.relocate, Expr.pieces, condition.pieces_relocate move,
      yes.pieces_relocate move, no.pieces_relocate move]
  | .binding _ name none ⟨value, _⟩ ⟨body, _⟩ => by
    simp only [Expr.relocate, Expr.pieces, value.pieces_relocate move, body.pieces_relocate move]
    rfl
  | .binding _ name (some ⟨type, _⟩) ⟨value, _⟩ ⟨body, _⟩ => by
    simp only [Expr.relocate, Expr.pieces, value.pieces_relocate move, body.pieces_relocate move,
      type.pieces_relocate move]
    rfl
  | .matching ⟨subject, _⟩ arms => by
    simp only [Expr.relocate, Expr.pieces, subject.pieces_relocate move,
      armPieces_relocate move arms]
  | .whileLoop ⟨condition, _⟩ ⟨body, _⟩ => by
    simp only [Expr.relocate, Expr.pieces, condition.pieces_relocate move,
      body.pieces_relocate move]
  | .forLoop _ ⟨range, _⟩ ⟨body, _⟩ => by
    simp only [Expr.relocate, Expr.pieces, range.pieces_relocate move, body.pieces_relocate move]
    rfl
  | .block [] none => rfl
  | .block (⟨statement, span⟩ :: statements) none => by
    have each := statementPieces_relocate move (⟨statement, span⟩ :: statements)
    simp only [relocateExprs] at each
    simp only [Expr.relocate, relocateExprs, Expr.pieces, each]
  | .block statements (some ⟨last, _⟩) => by
    simp only [Expr.relocate, Expr.pieces, statementPieces_relocate move statements,
      last.pieces_relocate move]
  | .assign _ ⟨value, _⟩ => by
    simp only [Expr.relocate, Expr.pieces, value.pieces_relocate move]
    rfl
  | .methodCall ⟨receiver, _⟩ _ given => by
    simp only [Expr.relocate, Expr.pieces, power_relocate, receiver.pieces_relocate move,
      exprPieces_relocate move given]
    rfl
  | .field ⟨receiver, _⟩ _ => by
    simp only [Expr.relocate, Expr.pieces, power_relocate, receiver.pieces_relocate move]
    rfl
  | .index ⟨receiver, _⟩ ⟨position, _⟩ => by
    simp only [Expr.relocate, Expr.pieces, power_relocate, receiver.pieces_relocate move,
      position.pieces_relocate move]
  | .state ⟨receiver, _⟩ _ => by
    simp only [Expr.relocate, Expr.pieces, power_relocate, receiver.pieces_relocate move]
  | .call _ given => by
    simp only [Expr.relocate, Expr.pieces, exprPieces_relocate move given]
    rfl
  | .variant _ _ none => rfl
  | .variant _ _ (some given) => by
    simp only [Expr.relocate, Expr.pieces, exprPieces_relocate move given]
    rfl
  | .construct _ fields => by
    simp only [Expr.relocate, Expr.pieces, fieldPieces_relocate move fields]
    rfl
  | .array elements => by
    simp only [Expr.relocate, Expr.pieces, exprPieces_relocate move elements]
  | .paren ⟨inner, _⟩ => by
    simp only [Expr.relocate, Expr.pieces, inner.pieces_relocate move]

/-- A moved type is printed as before. -/
theorem Ty.pieces_relocate (move : Relocation) : (type : Ty) →
    (type.relocate move).pieces = type.pieces
  | .primitive _ | .unit | .named _ => rfl
  | .reference target => by simp only [Ty.relocate, Ty.pieces, target.pieces_relocate move]
  | .mutableReference target => by simp only [Ty.relocate, Ty.pieces, target.pieces_relocate move]
  | .array element _ => by simp only [Ty.relocate, Ty.pieces, element.pieces_relocate move]
  | .refined _ constraints => by
    simp only [Ty.relocate, Ty.pieces, exprPieces_relocate move constraints]

theorem exprPieces_relocate (move : Relocation) : (exprs : List (Spanned Expr)) →
    exprPieces (relocateExprs move exprs) = exprPieces exprs
  | [] => rfl
  | ⟨expr, _⟩ :: rest => by
    simp only [relocateExprs, exprPieces, expr.pieces_relocate move, exprPieces_relocate move rest]

theorem statementPieces_relocate (move : Relocation) : (exprs : List (Spanned Expr)) →
    statementPieces (relocateExprs move exprs) = statementPieces exprs
  | [] => rfl
  | ⟨expr, _⟩ :: rest => by
    simp only [relocateExprs, statementPieces, expr.pieces_relocate move,
      statementPieces_relocate move rest]

theorem MatchArm.pieces_relocate (move : Relocation) : (arm : MatchArm) →
    (arm.relocate move).pieces = arm.pieces
  | .mk ⟨pattern, _⟩ ⟨body, _⟩ => by
    simp only [MatchArm.relocate, MatchArm.pieces, body.pieces_relocate move]
    rw [show (ContractSyntax.relocate move (⟨pattern, _⟩ : Spanned Pattern)).node =
      pattern.relocate move from rfl, pattern.pieces_relocate]

theorem armPieces_relocate (move : Relocation) : (arms : List MatchArm) →
    armPieces (relocateArms move arms) = armPieces arms
  | [] => rfl
  | arm :: rest => by
    simp only [relocateArms, armPieces, arm.pieces_relocate move, armPieces_relocate move rest]

theorem FieldValue.pieces_relocate (move : Relocation) : (field : FieldValue) →
    (field.relocate move).pieces = field.pieces
  | .mk _ ⟨value, _⟩ => by
    simp only [FieldValue.relocate, FieldValue.pieces, value.pieces_relocate move]
    rfl

theorem fieldPieces_relocate (move : Relocation) : (fields : List FieldValue) →
    fieldPieces (relocateFields move fields) = fieldPieces fields
  | [] => rfl
  | field :: rest => by
    simp only [relocateFields, fieldPieces, field.pieces_relocate move,
      fieldPieces_relocate move rest]

end

end ContractSyntax
