/-
**What is left of a printed tree without its parentheses.**

Parentheses say nothing that the tree does not: the other marks of a printed text are those of
the tree that is left when its parentheses are taken out. So what is left of the layout of an
expression can be told from what is left of the expression.

* `Expr.core`, `Expr.layout_core`: an expression without parentheses and spans, and its layout;
* `plain`: the marks of a text but for parentheses;
* `Expr.plain_core`: taking parentheses out of an expression leaves its other marks;
* `Written.face`, `plain_write_congr`: what can be seen of a layout if parentheses cannot.
-/

import ContractSyntax.Proofs.Printing.Contents
import ContractSyntax.Proofs.Printing.Fencing

namespace ContractSyntax

open Piece

/-! ### Layouts of moved trees -/

section Relocation

variable (move : Relocation)

theorem Ty.layout_relocate (type : Ty) :
    (type.relocate move).layout = replaced (fun _ => ContractSyntax.relocate move) type.layout := by
  cases type with
  | primitive | unit | named => exact (replaced_owned _ _).symm
  | reference target | mutableReference target =>
    simp [relocate, layout, target.layout_relocate]
  | array element => simp [relocate, layout, element.layout_relocate]
  | refined base constraints =>
    simp [relocate, layout, relocateExprs_eq]
    rfl

theorem MatchArm.layout_relocate (arm : MatchArm) :
    (arm.relocate move).layout = replaced (fun _ => ContractSyntax.relocate move) arm.layout := by
  obtain ⟨⟨pattern, span⟩, body⟩ := arm
  simp [relocate, layout, ContractSyntax.relocate, pattern.pieces_relocate]

theorem FieldValue.layout_relocate (field : FieldValue) :
    (field.relocate move).layout = replaced (fun _ => ContractSyntax.relocate move) field.layout := by
  obtain ⟨name, value⟩ := field
  simp [relocate, layout, ContractSyntax.relocate]

theorem Expr.layout_relocate (expr : Expr) :
    (expr.relocate move).layout = replaced (fun _ => ContractSyntax.relocate move) expr.layout := by
  cases expr with
  | int | float | string | bool | unit | var | ret | it => exact (replaced_owned _ _).symm
  | binary | unary | field | state | conditional | assign | whileLoop | forLoop | index | paren =>
    simp [relocate, layout, ContractSyntax.relocate]
  | binding isMutable name type =>
    cases type <;> simp [relocate, layout, statedLayout, Ty.layout_relocate, ContractSyntax.relocate]
  | matching subject arms =>
    simp [relocate, layout, relocateArms_eq, Function.comp_def, MatchArm.layout_relocate,
      ContractSyntax.relocate]
  | block statements last =>
    cases last with
    | none =>
      cases statements <;>
        simp [relocate, relocateExprs, layout, relocateExprs_eq, ContractSyntax.relocate]
    | some last => simp [relocate, layout, relocateExprs_eq, ContractSyntax.relocate]
  | methodCall | call | array =>
    simp [relocate, layout, relocateExprs_eq, ContractSyntax.relocate]
  | variant enumeration chosen given =>
    cases given <;> simp [relocate, layout, relocateExprs_eq, ContractSyntax.relocate]
  | construct struct fields =>
    simp [relocate, layout, relocateFields_eq, Function.comp_def, FieldValue.layout_relocate,
      ContractSyntax.relocate]

end Relocation

/-! ### Trees without parentheses -/

/-- The expression without parentheses and spans. -/
def Expr.core (expr : Expr) : Expr := erase expr.stripped

/-- An expression in its place without parentheses and spans. -/
abbrev coreInPlace (_ : Nat) (expr : Spanned Expr) : Spanned Expr := ⟨expr.node.core, nowhere⟩

namespace Expr

variable {expr : Expr}

theorem core_paren (inner : Spanned Expr) : (paren inner).core = inner.node.core := rfl

theorem power_core (other : expr.isParen = false) : expr.core.power = expr.power :=
  (power_relocate _ _).trans (power_fenced fun isParen => absurd (other.symm.trans isParen) nofun)

/-- Without parentheses and spans, an expression in other than parentheses has the layout of what
stands in it without these. -/
theorem layout_core (other : expr.isParen = false) :
    expr.core.layout = replaced coreInPlace expr.layout := by
  have stripped := @layout_fenced .strip expr fun isParen => absurd (other.symm.trans isParen) nofun
  calc
    expr.core.layout = replaced (fun _ => erase) expr.stripped.layout := layout_relocate _ _
    _ = replaced (fun _ => erase) (replaced Fencing.strip.inPlace expr.layout) :=
      congrArg _ stripped
    _ = replaced coreInPlace expr.layout := by
      rw [replaced_replaced]
      rfl

end Expr

/-! ### Marks other than parentheses -/

/-- Whether a mark is a parenthesis. -/
def Content.isParen : Content → Bool
  | other (.symbol .leftParen) | other (.symbol .rightParen) => true
  | _ => false

/-- The marks other than parentheses. -/
def plain (marks : List Content) : List Content := marks.filter fun mark => !mark.isParen

@[simp] theorem plain_nil : plain [] = [] := rfl

@[simp] theorem plain_append (first second : List Content) :
    plain (first ++ second) = plain first ++ plain second := List.filter_append ..

/-- The marks of the tokens among some pieces. -/
def Piece.marked (pieces : List Piece) : List Content := marks (tokens pieces)

@[simp] theorem Piece.marked_nil : marked [] = [] := rfl

@[simp] theorem Piece.marked_append (first second : List Piece) :
    marked (first ++ second) = marked first ++ marked second := by
  rw [marked, tokens_append, marks_append]
  rfl

@[simp] theorem plain_leftParen (pieces : List Piece) :
    plain (marked (sign .leftParen :: pieces)) = plain (marked pieces) := rfl

@[simp] theorem plain_rightParen : plain (marked [sign .rightParen]) = [] := rfl

@[simp] theorem plain_parenthesized (needed : Bool) (pieces : List Piece) :
    plain (marked (parenthesized needed pieces)) = plain (marked pieces) := by
  cases needed <;> simp [parenthesized]

/-- The marks of what is written, but for parentheses. -/
def Written.seen : Written → List Content
  | own piece => plain (marked [piece])
  | part _ expr => plain (marked expr.node.pieces)

theorem plain_write (layout : List Written) :
    plain (marked (write layout)) = layout.flatMap Written.seen := by
  induction layout with
  | nil => rfl
  | cons written rest continued =>
    rw [write_cons, marked_append, plain_append, continued, List.flatMap_cons]
    cases written with
    | own piece => rfl
    | part power expr => exact congrArg (· ++ _) (plain_parenthesized _ _)

/-- Leaving out parentheses changes no mark that is none. -/
theorem Expr.plain_core (expr : Expr) :
    plain (marked expr.core.pieces) = plain (marked expr.pieces) := by
  induction expr using Expr.induct with
  | step whole each =>
    cases isParen : whole.isParen with
    | true =>
      cases whole with
      | paren inner =>
        have same := each 0 inner (by simp [layout])
        simp only [core_paren, same, pieces_paren, plain_append, marked_append]
        simp
      | _ => cases isParen
    | false =>
      rw [← write_layout, layout_core isParen, ← write_layout whole, plain_write, plain_write,
        replaced, List.flatMap_map]
      refine congrArg List.flatten (List.map_congr_left fun written member => ?_)
      cases written with
      | own piece => rfl
      | part power expr => exact each power expr member

/-! ### Faces -/

/-- What can be seen of what is written if parentheses cannot. -/
def Written.face : Written → Piece ⊕ Expr
  | own piece => .inl piece
  | part _ expr => .inr expr.node.core

/-- Layouts that are the same without parentheses and spans have the same faces. -/
theorem face_replaced_core (layout : List Written) :
    (replaced coreInPlace layout).map (fun
      | .own piece => Sum.inl piece
      | .part _ expr => .inr expr.node) = layout.map Written.face := by
  rw [replaced, List.map_map]
  refine List.map_congr_left fun written _ => ?_
  cases written <;> rfl

theorem faces_of_replaced_core {first second : List Written}
    (same : replaced coreInPlace first = replaced coreInPlace second) :
    first.map Written.face = second.map Written.face := by
  rw [← face_replaced_core, ← face_replaced_core, same]

/-- Layouts with the same faces are written with the same marks but for parentheses. -/
theorem plain_write_congr {first second : List Written}
    (same : first.map Written.face = second.map Written.face) :
    plain (marked (write first)) = plain (marked (write second)) := by
  have seen (layout : List Written) :
      plain (marked (write layout)) = (layout.map Written.face).flatMap
        (Sum.elim (fun piece => plain (marked [piece])) fun expr => plain (marked expr.pieces)) := by
    rw [plain_write, List.flatMap_map]
    refine congrArg List.flatten (List.map_congr_left fun written _ => ?_)
    cases written with
    | own piece => rfl
    | part power expr => exact expr.node.plain_core.symm
  rw [seen, seen, same]

end ContractSyntax
