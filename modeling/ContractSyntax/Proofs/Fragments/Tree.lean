/-
**The parts of a program that can be read alone.**

A fragment is a definition, type, pattern or expression with a place of its own in the text. Three
kinds of expressions have a place and are none: an assignment, which is a statement only; a binding
that reaches to the end of its block, since its text does not show where the block goes on; and the
block without braces that the rest behind such a binding becomes.

* `Fragment`: what can be read alone;
* `Expr.fragments`, `Ty.fragments`: the fragments below an expression or a type;
* `Item.fragments`, `Program.fragments`: those of a definition or a program.
-/

import ContractSyntax.Tree.Item

namespace ContractSyntax

/-- A part of a program with a place of its own, which can be read alone. -/
inductive Fragment where
  | expr (place : Spanned Expr)
  | type (place : Spanned Ty)
  | pattern (place : Spanned Pattern)
  | definition (item : Item)

namespace Fragment

/-- The place of a fragment. -/
def span : Fragment → Span
  | expr place => place.span
  | type place => place.span
  | pattern place => place.span
  | definition item => item.span

end Fragment

/-- Where an expression stands. -/
inductive Slot where
  /-- Apart from what surrounds it. -/
  | alone
  /-- At the end of a block, or behind a binding at the end of one. -/
  | tail

/-- Whether a block has no braces: it starts where its first statement does, or is nothing at all. -/
def isUnbraced (statements : List (Spanned Expr)) (last : Option (Spanned Expr)) (span : Span) :
    Bool :=
  match statements with
  | first :: _ => span.start == first.span.start
  | [] => last.isNone && span.isEmpty

/-- The expression itself, if it can be read alone. -/
def Slot.fragment (slot : Slot) (expr : Expr) (span : Span) : List Fragment :=
  match slot, expr with
  | _, .assign .. => []
  | tail, .binding .. => []
  | tail, .block statements last =>
    if isUnbraced statements last span then [] else [.expr ⟨.block statements last, span⟩]
  | _, expr => [.expr ⟨expr, span⟩]

mutual

/-- The fragments below an expression, which stands in a slot. -/
def Expr.fragments (slot : Slot) : Expr → List Fragment
  | .int _ | .float _ | .string _ | .bool _ | .unit | .var _ | .ret | .it => []
  | .binary ⟨left, first⟩ _ ⟨right, second⟩ =>
    Slot.alone.fragment left first ++ left.fragments .alone ++
      (Slot.alone.fragment right second ++ right.fragments .alone)
  | .unary _ ⟨inner, span⟩ | .paren ⟨inner, span⟩ | .state ⟨inner, span⟩ _ | .field ⟨inner, span⟩ _
  | .assign _ ⟨inner, span⟩ => Slot.alone.fragment inner span ++ inner.fragments .alone
  | .conditional ⟨condition, first⟩ ⟨yes, second⟩ ⟨no, third⟩ =>
    Slot.alone.fragment condition first ++ condition.fragments .alone ++
      (Slot.alone.fragment yes second ++ yes.fragments .alone ++
        (Slot.alone.fragment no third ++ no.fragments .alone))
  | .binding _ _ type ⟨value, first⟩ ⟨body, second⟩ =>
    (match type with
      | none => []
      | some ⟨type, span⟩ => .type ⟨type, span⟩ :: type.fragments) ++
      (Slot.alone.fragment value first ++ value.fragments .alone ++
        (slot.fragment body second ++ body.fragments slot))
  | .matching ⟨subject, span⟩ arms =>
    Slot.alone.fragment subject span ++ subject.fragments .alone ++ armFragments arms
  | .whileLoop ⟨condition, first⟩ ⟨body, second⟩ =>
    Slot.alone.fragment condition first ++ condition.fragments .alone ++
      (Slot.alone.fragment body second ++ body.fragments .alone)
  | .forLoop _ ⟨range, first⟩ ⟨body, second⟩ =>
    Slot.alone.fragment range first ++ range.fragments .alone ++
      (Slot.alone.fragment body second ++ body.fragments .alone)
  | .block statements none => exprFragments statements
  | .block statements (some ⟨last, span⟩) =>
    exprFragments statements ++ (Slot.tail.fragment last span ++ last.fragments .tail)
  | .methodCall ⟨receiver, span⟩ _ given =>
    Slot.alone.fragment receiver span ++ receiver.fragments .alone ++ exprFragments given
  | .index ⟨receiver, first⟩ ⟨position, second⟩ =>
    Slot.alone.fragment receiver first ++ receiver.fragments .alone ++
      (Slot.alone.fragment position second ++ position.fragments .alone)
  | .variant _ _ none => []
  | .variant _ _ (some given) | .call _ given | .array given => exprFragments given
  | .construct _ fields => fieldFragments fields

/-- The fragments below a type. -/
def Ty.fragments : Ty → List Fragment
  | .primitive _ | .unit | .named _ => []
  | .reference target | .mutableReference target => target.fragments
  | .array element _ => element.fragments
  | .refined _ constraints => exprFragments constraints

/-- The fragments of some expressions. -/
def exprFragments : List (Spanned Expr) → List Fragment
  | [] => []
  | ⟨expr, span⟩ :: rest =>
    Slot.alone.fragment expr span ++ expr.fragments .alone ++ exprFragments rest

/-- The fragments of an alternative. -/
def MatchArm.fragments : MatchArm → List Fragment
  | .mk pattern ⟨body, span⟩ =>
    .pattern pattern :: (Slot.alone.fragment body span ++ body.fragments .alone)

/-- The fragments of some alternatives. -/
def armFragments : List MatchArm → List Fragment
  | [] => []
  | arm :: rest => arm.fragments ++ armFragments rest

/-- The fragments of a field. -/
def FieldValue.fragments : FieldValue → List Fragment
  | .mk _ ⟨value, span⟩ => Slot.alone.fragment value span ++ value.fragments .alone

/-- The fragments of some fields. -/
def fieldFragments : List FieldValue → List Fragment
  | [] => []
  | field :: rest => field.fragments ++ fieldFragments rest

end

/-- The fragments of an expression in a slot. -/
def Slot.fragments (slot : Slot) (expr : Spanned Expr) : List Fragment :=
  slot.fragment expr.node expr.span ++ expr.node.fragments slot

/-- The fragments of a type. -/
def Fragment.ofType (type : Spanned Ty) : List Fragment := .type type :: type.node.fragments

/-- The fragments of an expression by itself. -/
abbrev Fragment.ofExpr : Spanned Expr → List Fragment := Slot.alone.fragments

/-! ### Definitions and programs -/

open Fragment

/-- The fragments of a contract. -/
def Contract.fragments : Contract → List Fragment
  | conditions list => list.flatMap fun condition => ofExpr condition.condition
  | clauses pre post => pre.toList.flatMap ofExpr ++ post.toList.flatMap ofExpr

/-- The fragments of an attribute. -/
def Attribute.fragments (mark : Attribute) : List Fragment :=
  (mark.arguments.getD []).flatMap ofExpr

/-- The fragments of the variant of an enumeration. -/
def Variant.fragments (variant : Variant) : List Fragment :=
  (variant.parts.getD []).flatMap ofType

/-- The fragments of a name and its type. -/
def TypedName.fragments (typed : TypedName) : List Fragment := ofType typed.type

/-- The fragments below a definition. -/
def Item.fragments : Item → List Fragment
  | use _ => []
  | struct item =>
    item.attributes.flatMap Attribute.fragments ++ item.fields.flatMap TypedName.fragments
  | enum item => item.attributes.flatMap Attribute.fragments ++ item.variants.flatMap Variant.fragments
  | function item =>
    item.attributes.flatMap Attribute.fragments ++
      (item.parameters.flatMap TypedName.fragments ++ (ofType item.resultType ++
        (item.contract.toList.flatMap Contract.fragments ++ ofExpr item.body)))

/-- The fragments of a program: its definitions and what is below them. -/
def Program.fragments (program : Program) : List Fragment :=
  program.items.flatMap fun item => .definition item :: item.fragments

/-! ### Equations -/

theorem exprFragments_eq (exprs : List (Spanned Expr)) :
    exprFragments exprs = exprs.flatMap ofExpr := by
  induction exprs with
  | nil => rfl
  | cons expr rest continued => rw [exprFragments, continued]; rfl

theorem armFragments_eq (arms : List MatchArm) :
    armFragments arms = arms.flatMap MatchArm.fragments := by
  induction arms with
  | nil => rfl
  | cons arm rest continued => rw [armFragments, continued]; rfl

theorem fieldFragments_eq (fields : List FieldValue) :
    fieldFragments fields = fields.flatMap FieldValue.fragments := by
  induction fields with
  | nil => rfl
  | cons field rest continued => rw [fieldFragments, continued]; rfl

theorem fragments_binding (slot : Slot) (isMutable : Bool) (name : Name)
    (type : Option (Spanned Ty)) (value body : Spanned Expr) :
    (Expr.binding isMutable name type value body).fragments slot =
      type.toList.flatMap ofType ++ (ofExpr value ++ slot.fragments body) := by
  cases type with
  | none => rfl
  | some type => simp [Expr.fragments, Slot.fragments, ofType]

theorem fragments_block (slot : Slot) (statements : List (Spanned Expr))
    (last : Option (Spanned Expr)) :
    (Expr.block statements last).fragments slot =
      statements.flatMap ofExpr ++ last.toList.flatMap Slot.tail.fragments := by
  cases last with
  | none => simp [Expr.fragments, exprFragments_eq]
  | some last => simp [Expr.fragments, exprFragments_eq, Slot.fragments]

theorem ofExpr_assign (target : Name) (value : Spanned Expr) (span : Span) :
    ofExpr ⟨.assign target value, span⟩ = ofExpr value := rfl

end ContractSyntax
