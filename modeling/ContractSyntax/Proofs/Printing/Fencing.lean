/-
**Parentheses that are nodes.**

Printing puts parentheses around an operand that binds less tightly than its place demands. They
come back as nodes of their own when the text is read. A tree is fenced in two ways: with such a
node around each of these operands, and with no such node at all. What either way does to the layout
of an expression is the same, except that a node of parentheses goes away with its pieces.

* `Expr.pieces_secured`: parentheses where they are needed do not change the printed text;
* `Expr.Shaped.secured`: with them, every operand binds as tightly as its place demands.
-/

import ContractSyntax.Proofs.Printing.Layout
import ContractSyntax.Proofs.Printing.Program
import ContractSyntax.Proofs.Shape.Tree

namespace ContractSyntax

open Piece

/-! ### Fencing -/

/-- What becomes of the nodes of parentheses in a tree. -/
inductive Fencing where
  /-- One is put around each operand that needs one. -/
  | secure
  /-- All are left out. -/
  | strip
  deriving DecidableEq

/-- An operand in its place. -/
def Fencing.around (fencing : Fencing) (loose : Bool) (operand : Spanned Expr) : Spanned Expr :=
  if fencing = secure ∧ loose then ⟨.paren operand, operand.span⟩ else operand

/-- An expression that has parentheses. -/
def Fencing.kept : Fencing → Spanned Expr → Expr
  | secure, inner => .paren inner
  | strip, inner => inner.node

mutual

/-- The expression with its parentheses put in or left out. -/
def Expr.fenced (fencing : Fencing) : Expr → Expr
  | .int value => .int value
  | .float value => .float value
  | .string content => .string content
  | .bool value => .bool value
  | .unit => .unit
  | .var name => .var name
  | .ret => .ret
  | .it => .it
  | .binary ⟨left, first⟩ operator ⟨right, second⟩ =>
    .binary (fencing.around (left.power < operator.power) ⟨left.fenced fencing, first⟩) operator
      (fencing.around (right.power < operator.power + 1) ⟨right.fenced fencing, second⟩)
  | .unary operator ⟨operand, span⟩ =>
    .unary operator (fencing.around (operand.power < unaryPower) ⟨operand.fenced fencing, span⟩)
  | .conditional ⟨condition, first⟩ ⟨yes, second⟩ ⟨no, third⟩ =>
    .conditional ⟨condition.fenced fencing, first⟩ ⟨yes.fenced fencing, second⟩
      ⟨no.fenced fencing, third⟩
  | .binding isMutable name none ⟨value, first⟩ ⟨body, second⟩ =>
    .binding isMutable name none ⟨value.fenced fencing, first⟩ ⟨body.fenced fencing, second⟩
  | .binding isMutable name (some ⟨type, third⟩) ⟨value, first⟩ ⟨body, second⟩ =>
    .binding isMutable name (some ⟨type.fenced fencing, third⟩) ⟨value.fenced fencing, first⟩
      ⟨body.fenced fencing, second⟩
  | .matching ⟨subject, span⟩ arms =>
    .matching ⟨subject.fenced fencing, span⟩ (fencedArms fencing arms)
  | .whileLoop ⟨condition, first⟩ ⟨body, second⟩ =>
    .whileLoop ⟨condition.fenced fencing, first⟩ ⟨body.fenced fencing, second⟩
  | .forLoop name ⟨range, first⟩ ⟨body, second⟩ =>
    .forLoop name ⟨range.fenced fencing, first⟩ ⟨body.fenced fencing, second⟩
  | .block statements none => .block (fencedExprs fencing statements) none
  | .block statements (some ⟨last, span⟩) =>
    .block (fencedExprs fencing statements) (some ⟨last.fenced fencing, span⟩)
  | .assign name ⟨value, span⟩ => .assign name ⟨value.fenced fencing, span⟩
  | .methodCall ⟨receiver, span⟩ method given =>
    .methodCall
      (fencing.around (receiver.power < operandPower) ⟨receiver.fenced fencing, span⟩) method
      (fencedExprs fencing given)
  | .field ⟨receiver, span⟩ name =>
    .field (fencing.around (receiver.power < operandPower) ⟨receiver.fenced fencing, span⟩) name
  | .index ⟨receiver, first⟩ ⟨position, second⟩ =>
    .index (fencing.around (receiver.power < operandPower) ⟨receiver.fenced fencing, first⟩)
      ⟨position.fenced fencing, second⟩
  | .state ⟨receiver, span⟩ moment =>
    .state (fencing.around (receiver.power < operandPower) ⟨receiver.fenced fencing, span⟩) moment
  | .call function given => .call function (fencedExprs fencing given)
  | .variant enumeration chosen none => .variant enumeration chosen none
  | .variant enumeration chosen (some given) =>
    .variant enumeration chosen (some (fencedExprs fencing given))
  | .construct name fields => .construct name (fencedFields fencing fields)
  | .array elements => .array (fencedExprs fencing elements)
  | .paren ⟨inner, span⟩ => fencing.kept ⟨inner.fenced fencing, span⟩

/-- The type with the parentheses in its constraints put in or left out. -/
def Ty.fenced (fencing : Fencing) : Ty → Ty
  | .primitive base => .primitive base
  | .unit => .unit
  | .reference target => .reference (target.fenced fencing)
  | .mutableReference target => .mutableReference (target.fenced fencing)
  | .array element length => .array (element.fenced fencing) length
  | .refined base constraints => .refined base (fencedExprs fencing constraints)
  | .named name => .named name

/-- The expressions, each for itself. -/
def fencedExprs (fencing : Fencing) : List (Spanned Expr) → List (Spanned Expr)
  | [] => []
  | ⟨expr, span⟩ :: rest => ⟨expr.fenced fencing, span⟩ :: fencedExprs fencing rest

/-- The alternative, by its value. -/
def MatchArm.fenced (fencing : Fencing) : MatchArm → MatchArm
  | .mk pattern ⟨body, span⟩ => .mk pattern ⟨body.fenced fencing, span⟩

/-- The alternatives, each for itself. -/
def fencedArms (fencing : Fencing) : List MatchArm → List MatchArm
  | [] => []
  | arm :: rest => arm.fenced fencing :: fencedArms fencing rest

/-- The field, by its value. -/
def FieldValue.fenced (fencing : Fencing) : FieldValue → FieldValue
  | .mk name ⟨value, span⟩ => .mk name ⟨value.fenced fencing, span⟩

/-- The fields, each for itself. -/
def fencedFields (fencing : Fencing) : List FieldValue → List FieldValue
  | [] => []
  | field :: rest => field.fenced fencing :: fencedFields fencing rest

end

/-- With parentheses around each operand that binds less tightly than its place demands: as tightly
as the operator on its left side, more tightly on its right side, as an operand after a sign
operator, as one without any operator before a suffix. -/
abbrev Expr.secured : Expr → Expr := fenced .secure

/-- With parentheses around each operand that needs them. -/
abbrev Ty.secured : Ty → Ty := fenced .secure

/-- Without any parentheses around expressions. -/
abbrev Expr.stripped : Expr → Expr := fenced .strip

/-! ### What parentheses do to a layout -/

namespace Fencing

variable (fencing : Fencing)

/-- An expression where it may bind as it likes. -/
abbrev inside (expr : Spanned Expr) : Spanned Expr := ⟨expr.node.fenced fencing, expr.span⟩

theorem exprs_eq (exprs : List (Spanned Expr)) :
    fencedExprs fencing exprs = exprs.map fencing.inside := by
  induction exprs with
  | nil => rfl
  | cons expr rest continued => rw [fencedExprs, continued]; rfl

theorem arms_eq (arms : List MatchArm) :
    fencedArms fencing arms = arms.map (MatchArm.fenced fencing) := by
  induction arms with
  | nil => rfl
  | cons arm rest continued => rw [fencedArms, continued]; rfl

theorem fields_eq (fields : List FieldValue) :
    fencedFields fencing fields = fields.map (FieldValue.fenced fencing) := by
  induction fields with
  | nil => rfl
  | cons field rest continued => rw [fencedFields, continued]; rfl

end Fencing

section Layouts

variable (fencing : Fencing)

/-- An expression in a place that demands some power. -/
def Fencing.inPlace (power : Nat) (expr : Spanned Expr) : Spanned Expr :=
  fencing.around (expr.node.power < power) (fencing.inside expr)

@[simp] theorem Fencing.inPlace_zero : fencing.inPlace 0 = fencing.inside := by
  funext expr
  simp [inPlace, around]

theorem Ty.layout_fenced (type : Ty) :
    (type.fenced fencing).layout = replaced fencing.inPlace type.layout := by
  cases type with
  | primitive | unit | named => exact (replaced_owned _ _).symm
  | reference target | mutableReference target => simp [fenced, layout, target.layout_fenced]
  | array element => simp [fenced, layout, element.layout_fenced]
  | refined base constraints => simp [fenced, layout, Fencing.exprs_eq]

theorem MatchArm.layout_fenced (arm : MatchArm) :
    (arm.fenced fencing).layout = replaced fencing.inPlace arm.layout := by
  obtain ⟨pattern, body⟩ := arm
  simp [fenced, layout]

theorem FieldValue.layout_fenced (field : FieldValue) :
    (field.fenced fencing).layout = replaced fencing.inPlace field.layout := by
  obtain ⟨name, value⟩ := field
  simp [fenced, layout]

/-- Whether an expression is one in parentheses. -/
def Expr.isParen : Expr → Bool
  | paren _ => true
  | _ => false

variable {fencing}

/-- The layout of a fenced expression, unless its own parentheses are left out. -/
theorem Expr.layout_fenced {expr : Expr} (keeps : expr.isParen = true → fencing = .secure) :
    (expr.fenced fencing).layout = replaced fencing.inPlace expr.layout := by
  cases expr with
  | int | float | string | bool | unit | var | ret | it => exact (replaced_owned _ _).symm
  | binary | unary | field | state => simp [fenced, layout, Fencing.inPlace]
  | conditional | assign | whileLoop | forLoop => simp [fenced, layout]
  | binding isMutable name type =>
    cases type <;> simp [fenced, layout, statedLayout, Ty.layout_fenced]
  | matching subject arms =>
    simp [fenced, layout, Fencing.arms_eq, Function.comp_def, MatchArm.layout_fenced]
  | block statements last =>
    cases last with
    | none => cases statements <;> simp [fenced, fencedExprs, layout, Fencing.exprs_eq]
    | some last => simp [fenced, layout, Fencing.exprs_eq]
  | methodCall => simp [fenced, layout, Fencing.exprs_eq, Fencing.inPlace]
  | index => simp [fenced, layout, Fencing.inPlace, Fencing.around]
  | call | array => simp [fenced, layout, Fencing.exprs_eq]
  | variant enumeration chosen given =>
    cases given <;> simp [fenced, layout, Fencing.exprs_eq]
  | construct struct fields =>
    simp [fenced, layout, Fencing.fields_eq, Function.comp_def, FieldValue.layout_fenced]
  | paren inner =>
    obtain rfl := keeps rfl
    simp [fenced, Fencing.kept, layout]

/-- Parentheses do not change how tightly what is in their place binds, unless they are left out. -/
theorem Expr.power_fenced {expr : Expr} (keeps : expr.isParen = true → fencing = .secure) :
    (expr.fenced fencing).power = expr.power := by
  cases expr with
  | binding _ _ type => cases type <;> rfl
  | block _ last => cases last <;> rfl
  | variant _ _ given => cases given <;> rfl
  | paren =>
    obtain rfl := keeps rfl
    rfl
  | _ => rfl

end Layouts

/-! ### Parentheses where they are needed -/

/-- The node that is put around an operand is printed as the parentheses that the operand needs. -/
theorem Written.pieces_secured {power : Nat} {expr : Spanned Expr} (small : power ≤ operandPower)
    (same : expr.node.secured.pieces = expr.node.pieces) :
    (part power (Fencing.secure.inPlace power expr)).pieces = (part power expr).pieces := by
  have bound : expr.node.secured.power = expr.node.power := Expr.power_fenced fun _ => rfl
  by_cases loose : expr.node.power < power
  · have enough : ¬ operandPower < power := Nat.not_lt.mpr small
    simp only [Fencing.inPlace, Fencing.around, loose, decide_true, and_self, if_true, pieces]
    rw [show (Expr.paren (Fencing.secure.inside expr)).power = operandPower from rfl,
      decide_eq_false enough, parenthesized_false, Expr.pieces_paren, same]
    rfl
  · simp only [Fencing.inPlace, Fencing.around, loose, decide_false, and_false,
      Bool.false_eq_true, if_false, pieces, bound, same]

theorem Expr.power_le_of_mem_layout {whole : Expr} {power : Nat} {expr : Spanned Expr}
    (member : .part power expr ∈ whole.layout) : power ≤ operandPower := by
  rcases mem_operands member with rfl | operand
  · exact Nat.zero_le _
  · cases whole with
    | binary left operator right =>
      have tight := operator.power_le
      simp only [operands, List.mem_cons, Prod.mk.injEq, List.not_mem_nil, or_false] at operand
      simp only [operandPower]
      omega
    | unary | methodCall | field | index | state =>
      simp only [operands, List.mem_singleton, Prod.mk.injEq] at operand
      simp only [operand.1, unaryPower, operandPower]
      omega
    | _ => exact absurd operand List.not_mem_nil

/-- An expression with parentheses where they are needed is printed as before. -/
theorem Expr.pieces_secured (expr : Expr) : expr.secured.pieces = expr.pieces := by
  induction expr using Expr.induct with
  | step whole each =>
    rw [← write_layout, ← write_layout whole, layout_fenced fun _ => rfl]
    exact write_replaced fun power expr member =>
      Written.pieces_secured (power_le_of_mem_layout member) (each _ _ member)

theorem Ty.pieces_secured (type : Ty) : type.secured.pieces = type.pieces := by
  rw [← write_layout, ← write_layout type, layout_fenced]
  refine write_replaced fun power expr member => Written.pieces_secured ?_ expr.node.pieces_secured
  rw [(part_mem_layout.mp member).1]
  exact Nat.zero_le _

/-! ### What parentheses make of operands -/

/-- Any expression may be any operand. -/
def Demand.any : Demand := fun _ _ => True

/-- An operand with the parentheses that it needs binds as tightly as its place demands. -/
theorem Demand.bare_around {power : Nat} (positive : 0 < power) (small : power ≤ operandPower)
    (expr : Expr) (span : Span) :
    bare power (Fencing.secure.around (expr.power < power) ⟨expr.secured, span⟩).node := by
  by_cases loose : expr.power < power
  · simp only [Fencing.around, loose, decide_true, and_self, if_true]
    exact ⟨rfl, small⟩
  · simp only [Fencing.around, loose, decide_false, and_false, Bool.false_eq_true, if_false]
    refine bare_of_le positive ?_
    rw [Expr.power_fenced fun _ => rfl]
    exact Nat.not_lt.mp loose

theorem Fencing.shaped_around {demand : Demand} {expr : Spanned Expr}
    (shaped : expr.node.Shaped demand .value) (fencing : Fencing) (loose : Bool) :
    (fencing.around loose expr).node.Shaped demand .value := by
  unfold around
  split
  · exact shaped
  · exact shaped

mutual

/-- With parentheses where they are needed, operands in any shape are as bare as those of a text. -/
theorem Expr.Shaped.secured {role : Role} : {expr : Expr} → expr.Shaped .any role →
    expr.secured.Shaped .bare role
  | .int _, shaped | .float _, shaped | .string _, shaped | .bool _, shaped | .unit, shaped
  | .var _, shaped | .ret, shaped | .it, shaped | .variant _ _ none, shaped => shaped
  | .binary ⟨left, _⟩ operator ⟨right, _⟩, ⟨_, _, first, second⟩ =>
    ⟨Demand.bare_around operator.one_le_power (Nat.le_trans operator.power_le (by decide)) left _,
      Demand.bare_around (Nat.succ_pos _) (Nat.succ_le_succ (Nat.le_succ_of_le operator.power_le))
        right _,
      Fencing.shaped_around first.secured _ _, Fencing.shaped_around second.secured _ _⟩
  | .unary _ ⟨operand, _⟩, ⟨_, inner⟩ =>
    ⟨Demand.bare_around (by decide) (by decide) operand _,
      Fencing.shaped_around inner.secured _ _⟩
  | .conditional ⟨_, _⟩ ⟨_, _⟩ ⟨_, _⟩, ⟨condition, yes, no⟩ =>
    ⟨condition.secured, yes.secured, no.secured⟩
  | .binding _ _ none ⟨_, _⟩ ⟨_, _⟩, ⟨value, name, given, body⟩ =>
    ⟨value, name, given.secured, body.secured⟩
  | .binding _ _ (some ⟨_, _⟩) ⟨_, _⟩ ⟨_, _⟩, ⟨value, name, type, given, body⟩ =>
    ⟨value, name, type.secured, given.secured, body.secured⟩
  | .matching ⟨_, _⟩ _, ⟨subject, arms⟩ => ⟨subject.secured, armsShaped_secured arms⟩
  | .whileLoop ⟨_, _⟩ ⟨_, _⟩, ⟨condition, body⟩ => ⟨condition.secured, body.secured⟩
  | .forLoop _ ⟨_, _⟩ ⟨_, _⟩, ⟨name, range, body⟩ => ⟨name, range.secured, body.secured⟩
  | .block _ none, statements => exprsShaped_secured statements
  | .block _ (some ⟨_, _⟩), ⟨statements, last⟩ => ⟨exprsShaped_secured statements, last.secured⟩
  | .assign _ ⟨_, _⟩, ⟨statement, name, value⟩ => ⟨statement, name, value.secured⟩
  | .methodCall ⟨receiver, _⟩ _ _, ⟨_, inner, name, given⟩ =>
    ⟨Demand.bare_around (by decide) (Nat.le_refl _) receiver _,
      Fencing.shaped_around inner.secured _ _, name, exprsShaped_secured given⟩
  | .field ⟨receiver, _⟩ _, ⟨_, inner, name⟩ =>
    ⟨Demand.bare_around (by decide) (Nat.le_refl _) receiver _,
      Fencing.shaped_around inner.secured _ _, name⟩
  | .index ⟨receiver, _⟩ ⟨_, _⟩, ⟨_, inner, position⟩ =>
    ⟨Demand.bare_around (by decide) (Nat.le_refl _) receiver _,
      Fencing.shaped_around inner.secured _ _, position.secured⟩
  | .state ⟨receiver, _⟩ _, ⟨_, inner⟩ =>
    ⟨Demand.bare_around (by decide) (Nat.le_refl _) receiver _,
      Fencing.shaped_around inner.secured _ _⟩
  | .call _ _, ⟨name, given⟩ => ⟨name, exprsShaped_secured given⟩
  | .variant _ _ (some _), ⟨enumeration, chosen, given⟩ =>
    ⟨enumeration, chosen, exprsShaped_secured given⟩
  | .construct _ _, ⟨name, fields⟩ => ⟨name, fieldsShaped_secured fields⟩
  | .array _, elements => exprsShaped_secured elements
  | .paren ⟨inner, _⟩, shaped => (show inner.Shaped .any .value from shaped).secured

theorem Ty.Shaped.secured : {type : Ty} → type.Shaped .any → type.secured.Shaped .bare
  | .primitive _, shaped | .unit, shaped | .named _, shaped => shaped
  | .reference target, shaped | .mutableReference target, shaped | .array target _, shaped =>
    (show target.Shaped .any from shaped).secured
  | .refined _ _, ⟨base, constraints⟩ => ⟨base, exprsShaped_secured constraints⟩

theorem exprsShaped_secured {role : Role} : {exprs : List (Spanned Expr)} →
    exprsShaped .any role exprs → exprsShaped .bare role (fencedExprs .secure exprs)
  | [], _ => trivial
  | ⟨_, _⟩ :: _, ⟨first, rest⟩ => ⟨first.secured, exprsShaped_secured rest⟩

theorem MatchArm.Shaped.secured : {arm : MatchArm} → arm.Shaped .any →
    (arm.fenced .secure).Shaped .bare
  | .mk _ ⟨_, _⟩, ⟨pattern, body⟩ => ⟨pattern, body.secured⟩

theorem armsShaped_secured : {arms : List MatchArm} → armsShaped .any arms →
    armsShaped .bare (fencedArms .secure arms)
  | [], _ => trivial
  | _ :: _, ⟨first, rest⟩ => ⟨first.secured, armsShaped_secured rest⟩

theorem FieldValue.Shaped.secured : {field : FieldValue} → field.Shaped .any →
    (field.fenced .secure).Shaped .bare
  | .mk _ ⟨_, _⟩, ⟨name, value⟩ => ⟨name, value.secured⟩

theorem fieldsShaped_secured : {fields : List FieldValue} → fieldsShaped .any fields →
    fieldsShaped .bare (fencedFields .secure fields)
  | [], _ => trivial
  | _ :: _, ⟨first, rest⟩ => ⟨first.secured, fieldsShaped_secured rest⟩

end

end ContractSyntax
