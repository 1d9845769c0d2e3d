/-
**How deep in parentheses a token stands.**

Every printed tree has as many opening as closing parentheses. So the tokens that an expression has
of its own stand at the depth at which it is printed, whatever parentheses there are in its parts,
and the depth of one of them tells how many parentheses there are around the expression.

* `Expr.net_pieces`: a printed expression opens as many parentheses as it closes;
* `depth_unique`: two ways of writing the same layout that agree about the depths of all tokens
  begin at the same depth.
-/

import ContractSyntax.Proofs.Printing.Skeleton

namespace ContractSyntax

open Piece

/-! ### Depths -/

/-- How much deeper in parentheses what is behind a mark stands. -/
def Content.opens : Content → Int
  | other (.symbol .leftParen) => 1
  | other (.symbol .rightParen) => -1
  | _ => 0

/-- How much deeper in parentheses what is behind some marks stands. -/
def net : List Content → Int
  | [] => 0
  | mark :: rest => mark.opens + net rest

/-- How deep in parentheses each mark stands that is none, if the first stands at `depth`. -/
def depths (depth : Int) : List Content → List Int
  | [] => []
  | mark :: rest => (if mark.isParen then [] else [depth]) ++ depths (depth + mark.opens) rest

@[simp] theorem net_nil : net [] = 0 := rfl

@[simp] theorem net_append (first second : List Content) :
    net (first ++ second) = net first + net second := by
  induction first with
  | nil => simp
  | cons mark rest continued => simp [net, continued, Int.add_assoc]

theorem depths_append (depth : Int) (first second : List Content) :
    depths depth (first ++ second) = depths depth first ++ depths (depth + net first) second := by
  induction first generalizing depth with
  | nil => simp [depths]
  | cons mark rest continued => simp [depths, net, continued, Int.add_assoc]

theorem length_depths (depth : Int) (marks : List Content) :
    (depths depth marks).length = (plain marks).length := by
  induction marks generalizing depth with
  | nil => rfl
  | cons mark rest continued =>
    cases isParen : mark.isParen <;> simp [depths, plain, isParen, continued]

theorem marked_paren (pieces : List Piece) :
    marked (sign .leftParen :: pieces ++ [sign .rightParen]) =
      .other (.symbol .leftParen) :: (marked pieces ++ [.other (.symbol .rightParen)]) := by
  rw [marked_append]
  rfl

/-- The depths of marks with parentheses around them. -/
theorem depths_paren (depth : Int) (pieces : List Piece) :
    depths depth (marked (sign .leftParen :: pieces ++ [sign .rightParen])) =
      depths (depth + 1) (marked pieces) := by
  rw [marked_paren, depths, depths_append]
  simp [depths, Content.isParen, Content.opens]

theorem net_paren (pieces : List Piece) :
    net (marked (sign .leftParen :: pieces ++ [sign .rightParen])) = net (marked pieces) := by
  rw [marked_paren, net, net_append]
  simp only [net, Content.opens]
  omega

theorem net_parenthesized (needed : Bool) (pieces : List Piece) :
    net (marked (parenthesized needed pieces)) = net (marked pieces) := by
  cases needed with
  | false => rfl
  | true => exact net_paren pieces

theorem depths_parenthesized (depth : Int) (needed : Bool) (pieces : List Piece) :
    depths depth (marked (parenthesized needed pieces)) =
      depths (depth + if needed then 1 else 0) (marked pieces) := by
  cases needed with
  | false => simp
  | true => exact depths_paren depth pieces

/-! ### Balance -/

/-- The pieces of a layout that are its own. -/
def owns : List Written → List Piece
  | [] => []
  | .own piece :: rest => piece :: owns rest
  | .part _ _ :: rest => owns rest

@[simp] theorem owns_nil : owns [] = [] := rfl

@[simp] theorem owns_own (piece : Piece) (rest : List Written) :
    owns (.own piece :: rest) = piece :: owns rest := rfl

@[simp] theorem owns_part (power : Nat) (expr : Spanned Expr) (rest : List Written) :
    owns (.part power expr :: rest) = owns rest := rfl

@[simp] theorem owns_append (first second : List Written) :
    owns (first ++ second) = owns first ++ owns second := by
  induction first with
  | nil => rfl
  | cons written rest continued => cases written <;> simp [continued]

@[simp] theorem owns_owned (pieces : List Piece) : owns (owned pieces) = pieces := by
  induction pieces with
  | nil => rfl
  | cons piece rest continued => exact congrArg (piece :: ·) continued

/-- Layouts with the same faces have the same pieces of their own. -/
theorem owns_congr {first second : List Written}
    (same : first.map Written.face = second.map Written.face) : owns first = owns second := by
  have seen (layout : List Written) :
      owns layout = (layout.map Written.face).flatMap (Sum.elim ([·]) fun _ => []) := by
    induction layout with
    | nil => rfl
    | cons written rest continued => cases written <;> simp [Written.face, continued]
  rw [seen, seen, same]

/-- Whether the pieces that a layout has of its own open as many parentheses as they close. -/
def Balanced (layout : List Written) : Prop := net (marked (owns layout)) = 0

namespace Balanced

theorem append {first second : List Written} (before : Balanced first) (after : Balanced second) :
    Balanced (first ++ second) := by
  unfold Balanced at before after ⊢
  simp [before, after]

theorem owned {pieces : List Piece} (balanced : net (marked pieces) = 0) :
    Balanced (owned pieces) := by
  unfold Balanced
  rwa [owns_owned]

theorem part (power : Nat) (expr : Spanned Expr) : Balanced [.part power expr] := rfl

theorem spread {separator : List Piece} {layouts : List (List Written)}
    (between : net (marked separator) = 0) (each : ∀ layout ∈ layouts, Balanced layout) :
    Balanced (spread separator layouts) := by
  induction layouts with
  | nil => rfl
  | cons first rest continued =>
    have here := each first List.mem_cons_self
    cases rest with
    | nil => exact here
    | cons second others =>
      exact (here.append (owned between)).append
        (continued fun other member => each other (List.mem_cons_of_mem _ member))

section Lists

variable {layouts : List (List Written)} (each : ∀ layout ∈ layouts, Balanced layout)

include each

theorem listed : Balanced (listed layouts) := spread rfl each

theorem inParens : Balanced (listedInParens layouts) := by
  unfold Balanced
  rw [listedInParens, owns_append, owns_append, owns_owned, owns_owned]
  exact (net_paren _).trans (listed each)

theorem inBraces : Balanced (listedInBraces layouts) := by
  cases layouts with
  | nil => rfl
  | cons layout layouts => exact ((owned rfl).append (listed each)).append (owned rfl)

theorem inWideBraces : Balanced (listedInWideBraces layouts) := by
  cases layouts with
  | nil => rfl
  | cons layout layouts => exact inBraces each

end Lists

theorem exprs (exprs : List (Spanned Expr)) : ∀ layout ∈ parts exprs, Balanced layout :=
  List.forall_mem_map.mpr fun expr _ => part 0 expr

theorem statements (statements : List (Spanned Expr)) : Balanced (statementLayout statements) := by
  induction statements with
  | nil => rfl
  | cons statement others continued =>
    exact (((owned rfl).append (part 0 statement)).append (owned rfl)).append continued

end Balanced

/-- A layout opens as many parentheses as its own pieces do if its parts are balanced. -/
theorem net_write {layout : List Written}
    (each : ∀ power expr, .part power expr ∈ layout → net (marked expr.node.pieces) = 0) :
    net (marked (write layout)) = net (marked (owns layout)) := by
  induction layout with
  | nil => rfl
  | cons written rest continued =>
    have others := continued fun power expr member =>
      each power expr (List.mem_cons_of_mem _ member)
    cases written with
    | own piece =>
      rw [write_cons, owns_own, ← List.singleton_append, marked_append, marked_append, net_append,
        net_append, others]
      rfl
    | part power expr =>
      rw [write_cons, owns_part, marked_append, net_append, others, Written.pieces, net_parenthesized,
        each power expr List.mem_cons_self, Int.zero_add]

theorem net_int (value : Int) : net (marked (Piece.int value)) = 0 := by
  unfold Piece.int
  dsimp only
  split <;> rfl

theorem net_float (value : Binary64) : net (marked (Piece.float value)) = 0 := by
  unfold Piece.float
  dsimp only
  split <;> rfl

theorem Pattern.net_pieces (pattern : Pattern) : net (marked pattern.pieces) = 0 := by
  cases pattern with
  | wildcard | bind => rfl
  | literal value =>
    cases value with
    | int value => exact net_int _
    | float value => exact net_float _
    | string => rfl
    | bool value => cases value <;> rfl
  | variant enumeration chosen bindings =>
    cases bindings with
    | none => rfl
    | some bindings =>
      have names : ∀ layout ∈ bindings.map fun name => owned [ident name.node], Balanced layout :=
        List.forall_mem_map.mpr fun name _ => .owned rfl
      have inner := @net_write (listedInParens (bindings.map fun name => owned [ident name.node])) <| by
        intro power expr member
        obtain ⟨_, laid, inside⟩ := part_mem_listedInParens.mp member
        obtain ⟨name, _, rfl⟩ := List.mem_map.mp laid
        exact absurd inside (part_not_mem_owned _)
      rw [write_listedInParens, List.map_map] at inner
      simp only [Function.comp_def, write_owned] at inner
      rw [pieces, marked_append, net_append, inner]
      exact (Int.zero_add _).trans (Balanced.inParens names)

/-! ### Printed trees are balanced -/

theorem Ty.balanced_layout (type : Ty) : Balanced type.layout := by
  cases type with
  | primitive | unit | named => exact .owned rfl
  | reference target | mutableReference target =>
    exact (Balanced.owned rfl).append target.balanced_layout
  | array element length =>
    have closed : net (marked ([sign .semicolon, space] ++ Piece.int length.toNat ++
        [sign .rightBracket])) = 0 := by
      rw [marked_append, marked_append, net_append, net_append, net_int]
      rfl
    exact ((Balanced.owned rfl).append element.balanced_layout).append (.owned closed)
  | refined base constraints =>
    exact (Balanced.owned rfl).append (.inBraces (.exprs constraints))

theorem MatchArm.balanced_layout (arm : MatchArm) : Balanced arm.layout := by
  obtain ⟨pattern, body⟩ := arm
  refine .append (.owned ?_) (.part 0 body)
  rw [marked_append, net_append, pattern.node.net_pieces]
  rfl

theorem FieldValue.balanced_layout (field : FieldValue) : Balanced field.layout := by
  obtain ⟨name, value⟩ := field
  exact .append (.owned rfl) (.part 0 value)

open ContractSyntax.Balanced in
/-- The pieces that a printed expression has of its own are balanced. -/
theorem Expr.balanced_layout (expr : Expr) : Balanced expr.layout := by
  cases expr with
  | int value => exact .owned (net_int _)
  | float value => exact .owned (net_float _)
  | bool value => cases value <;> exact .owned rfl
  | string | unit | var | ret | it => exact .owned rfl
  | binary left operator right =>
    have infixed : net (marked [space, operator.piece, space]) = 0 := by cases operator <;> rfl
    exact .append (.append (.part _ left) (.owned infixed)) (.part _ right)
  | unary operator operand =>
    have signs : net (marked operator.pieces) = 0 := by cases operator <;> rfl
    exact .append (.owned signs) (.part _ operand)
  | conditional | assign | index | field | state => rfl
  | binding isMutable name type value body =>
    have named : net (marked ([word .let_, space] ++
        (if isMutable then [word .mut_, space] else []) ++ [ident name.node])) = 0 := by
      cases isMutable <;> rfl
    have stated : Balanced (statedLayout type) := by
      cases type with
      | none => rfl
      | some type => exact .append (.owned rfl) type.node.balanced_layout
    exact .append (.append (.append (.append (.append (.owned named) stated) (.owned rfl))
      (.part 0 value)) (.owned rfl)) (.part 0 body)
  | matching subject arms =>
    refine .append rfl (.inWideBraces (List.forall_mem_map.mpr fun arm _ => arm.balanced_layout))
  | whileLoop condition body | forLoop name condition body =>
    exact .append rfl (.inBraces (List.forall_mem_singleton.mpr (.part 0 body)))
  | block items last =>
    cases last with
    | none =>
      cases items with
      | nil => rfl
      | cons => exact .append (.append (.owned rfl) (.statements _)) (.owned rfl)
    | some last =>
      cases items <;>
        exact .append (.append (.append (.append (.owned rfl) (.statements _)) (.owned rfl))
          (.part 0 last)) (.owned rfl)
  | methodCall receiver method given => exact .append rfl (.inParens (.exprs given))
  | call function given => exact .append (.owned rfl) (.inParens (.exprs given))
  | variant enumeration chosen given =>
    cases given with
    | none => rfl
    | some given => exact .append (.owned rfl) (.inParens (.exprs given))
  | construct struct fields =>
    exact .append (.owned rfl)
      (.inBraces (List.forall_mem_map.mpr fun field _ => field.balanced_layout))
  | array elements => exact .append (.append (.owned rfl) (.listed (.exprs elements))) (.owned rfl)
  | paren => rfl

/-- A printed expression opens as many parentheses as it closes. -/
theorem Expr.net_pieces (expr : Expr) : net (marked expr.pieces) = 0 := by
  induction expr using Expr.induct with
  | step whole each =>
    rw [← write_layout, net_write each]
    exact whole.balanced_layout

/-! ### Marks of an expression's own -/

/-- Whether a piece is a token other than a parenthesis or a comma. -/
def Piece.isMark : Piece → Bool
  | token content => !content.isComma && !content.content.isParen
  | _ => false

theorem depths_mark {piece : Piece} (isMark : piece.isMark = true) (depth : Int)
    (rest : List Piece) :
    depths depth (marked (piece :: rest)) = depth :: depths depth (marked rest) := by
  cases piece with
  | token content =>
    simp only [Piece.isMark, Bool.and_eq_true, Bool.not_eq_true'] at isMark
    obtain ⟨noComma, noParen⟩ := isMark
    have flat : content.content.opens = 0 := by
      generalize content.content = mark at noParen
      unfold Content.isParen at noParen
      unfold Content.opens
      split <;> simp_all
    have whole : marked (token content :: rest) = content.content :: marked rest :=
      marks_cons noComma _
    rw [whole, depths, noParen, flat]
    simp
  | space | newline => cases isMark

@[simp] theorem own_mem_owned {piece : Piece} {pieces : List Piece} :
    .own piece ∈ owned pieces ↔ piece ∈ pieces := by
  simp [owned]

/-- Every expression but one in parentheses and `()` has a token of its own that is a mark. -/
theorem Expr.exists_mark {expr : Expr} (other : expr.isParen = false) (some : expr ≠ .unit) :
    ∃ piece, .own piece ∈ expr.layout ∧ piece.isMark = true := by
  cases expr with
  | int value =>
    refine ⟨token (.int (toString value.toInt.natAbs)), own_mem_owned.mpr ?_, rfl⟩
    unfold Piece.int
    dsimp only
    split <;> simp
  | float value =>
    refine ⟨token (.float value.sourceDigits), own_mem_owned.mpr ?_, rfl⟩
    unfold Piece.float
    dsimp only
    split <;> simp
  | string content => exact ⟨token (.string content), by simp [layout], rfl⟩
  | bool value => exact ⟨Piece.bool value, by simp [layout], by cases value <;> rfl⟩
  | unit => exact absurd rfl some
  | var name => exact ⟨ident name, by simp [layout], rfl⟩
  | ret => exact ⟨word .ret, by simp [layout], rfl⟩
  | it => exact ⟨word .it, by simp [layout], rfl⟩
  | binary left operator right =>
    exact ⟨operator.piece, by simp [layout], by cases operator <;> rfl⟩
  | unary operator operand =>
    cases operator with
    | negate => exact ⟨sign .minus, by simp [layout, UnaryOperator.pieces], rfl⟩
    | not => exact ⟨word .not_, by simp [layout, UnaryOperator.pieces], rfl⟩
    | reference | mutableReference =>
      exact ⟨sign .ampersand, by simp [layout, UnaryOperator.pieces], rfl⟩
    | dereference => exact ⟨sign .star, by simp [layout, UnaryOperator.pieces], rfl⟩
  | conditional => exact ⟨word .if_, by simp [layout], rfl⟩
  | binding => exact ⟨word .let_, by simp [layout], rfl⟩
  | matching => exact ⟨word .match_, by simp [layout], rfl⟩
  | whileLoop => exact ⟨word .while_, by simp [layout], rfl⟩
  | forLoop => exact ⟨word .for_, by simp [layout], rfl⟩
  | block statements last =>
    refine ⟨sign .leftBrace, ?_, rfl⟩
    cases last <;> cases statements <;> simp [layout]
  | assign => exact ⟨sign .equal, by simp [layout], rfl⟩
  | methodCall | field | state => exact ⟨sign .dot, by simp [layout], rfl⟩
  | index => exact ⟨sign .leftBracket, by simp [layout], rfl⟩
  | call function => exact ⟨ident function.node, by simp [layout], rfl⟩
  | variant enumeration chosen given =>
    refine ⟨sign .colonColon, ?_, rfl⟩
    cases given <;> simp [layout, variantPieces]
  | construct => exact ⟨word .new, by simp [layout], rfl⟩
  | array => exact ⟨sign .leftBracket, by simp [layout], rfl⟩
  | paren => cases other

/-! ### Layouts with the same faces -/

section Faces

variable {first second : List Written} {before after : List Written}

theorem split_own {piece : Piece}
    (same : (before ++ .own piece :: after).map Written.face = second.map Written.face) :
    ∃ before' after', second = before' ++ .own piece :: after' ∧
      before.map Written.face = before'.map Written.face := by
  rw [List.map_append, List.map_cons] at same
  obtain ⟨before', _, rfl, front, faces⟩ := List.map_eq_append_iff.mp same.symm
  obtain ⟨written, after', rfl, face, _⟩ := List.map_eq_cons_iff.mp faces
  cases written with
  | own other =>
    cases face
    exact ⟨before', after', rfl, front.symm⟩
  | part => cases face

theorem split_part {power : Nat} {part : Spanned Expr}
    (same : replaced coreInPlace (before ++ .part power part :: after) =
      replaced coreInPlace second) :
    ∃ before' part' after', second = before' ++ .part power part' :: after' ∧
      before.map Written.face = before'.map Written.face ∧ part.node.core = part'.node.core ∧
      after.map Written.face = after'.map Written.face := by
  rw [replaced_append, replaced_part] at same
  obtain ⟨before', _, rfl, front, faces⟩ := List.map_eq_append_iff.mp same.symm
  obtain ⟨written, after', rfl, face, back⟩ := List.map_eq_cons_iff.mp faces
  cases written with
  | own other => cases face
  | part power' part' =>
    obtain ⟨rfl, core⟩ := Written.part.inj face
    exact ⟨before', part', after', rfl, faces_of_replaced_core front.symm,
      (congrArg Spanned.node core).symm, faces_of_replaced_core back.symm⟩

/-- Layouts with the same faces are written with as many parentheses more that open than close. -/
theorem net_write_congr (faces : first.map Written.face = second.map Written.face) :
    net (marked (write first)) = net (marked (write second)) := by
  rw [net_write fun _ expr _ => expr.node.net_pieces,
    net_write fun _ expr _ => expr.node.net_pieces, owns_congr faces]

/-- Behind layouts with the same faces, marks that are as many stand at depths that differ as those
before them do. -/
theorem depths_between (fronts : first.map Written.face = second.map Written.face)
    {middle middle' back back' : List Piece}
    (alike : plain (marked middle) = plain (marked middle')) {depth depth' : Int}
    (same : depths depth (marked (write first ++ middle ++ back)) =
      depths depth' (marked (write second ++ middle' ++ back'))) :
    ∃ shift, depths (depth + shift) (marked middle) =
      depths (depth' + shift) (marked middle') := by
  simp only [List.append_assoc, marked_append, depths_append, ← net_write_congr fronts] at same
  have behind := (List.append_inj same
    (by rw [length_depths, length_depths, plain_write_congr fronts])).2
  exact ⟨_, (List.append_inj behind (by rw [length_depths, length_depths, alike])).1⟩

/-- Layouts with the same faces that are written with the same depths begin at the same depth. -/
theorem depth_unique {piece : Piece} {depth depth' : Int} (member : .own piece ∈ first)
    (isMark : piece.isMark = true) (faces : first.map Written.face = second.map Written.face)
    (same : depths depth (marked (write first)) = depths depth' (marked (write second))) :
    depth = depth' := by
  obtain ⟨before, after, rfl⟩ := List.append_of_mem member
  obtain ⟨before', after', rfl, fronts⟩ := split_own faces
  have nets := net_write_congr fronts
  have whole (rest : List Written) : write (.own piece :: rest) = piece :: write rest := rfl
  rw [write_append, write_append, whole, whole, marked_append, marked_append, depths_append,
    depths_append, depths_mark isMark, depths_mark isMark] at same
  have lengths : (depths depth (marked (write before))).length =
      (depths depth' (marked (write before'))).length := by
    rw [length_depths, length_depths, plain_write_congr fronts]
  have heads := List.head_eq_of_cons_eq (List.append_inj same lengths).2
  omega

end Faces

end ContractSyntax
