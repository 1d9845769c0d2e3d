/-
**Printed trees stay legible when a part is replaced.**

Whatever is written in the place of an expression, if only it begins and ends as an expression does,
the pieces around it stay apart from it and from one another. So a tree in shape is legible whatever
its operands are, and it stays legible when parentheses around an operand are left out.

* `Expr.Shaped.seamless`: the layout of an expression, with anything in its parts;
* `Expr.Shaped.segment`, `Ty.Shaped.segment`: expressions and types in shape, with any operands;
* `Expr.Shaped.refilled`: an expression with another segment in the place of a part.
-/

import ContractSyntax.Proofs.Printing.Layout
import ContractSyntax.Proofs.Printing.Legible
import ContractSyntax.Proofs.Shape.Tree
import Mathlib.Data.List.Forall2

namespace ContractSyntax

open Piece

/-! ### Filling layouts -/

/-- Whether some pieces are those of a layout with a segment for each part. -/
def Fills : List Written → List Piece → Prop
  | [], pieces => pieces = []
  | .own piece :: rest, pieces => ∃ others, pieces = piece :: others ∧ Fills rest others
  | .part _ _ :: rest, pieces =>
    ∃ filling others, pieces = filling ++ others ∧ Segment .operand .separator filling ∧
      Fills rest others

theorem fills_append_iff {first second : List Written} {pieces : List Piece} :
    Fills (first ++ second) pieces ↔
      ∃ before after, pieces = before ++ after ∧ Fills first before ∧ Fills second after := by
  induction first generalizing pieces with
  | nil =>
    constructor
    · exact fun fills => ⟨[], pieces, rfl, rfl, fills⟩
    · rintro ⟨_, after, rfl, rfl, fills⟩
      exact fills
  | cons written rest continued =>
    cases written with
    | own piece =>
      simp only [List.cons_append, Fills, continued]
      constructor
      · rintro ⟨_, rfl, before, after, rfl, first, second⟩
        exact ⟨piece :: before, after, rfl, ⟨before, rfl, first⟩, second⟩
      · rintro ⟨_, after, rfl, ⟨before, rfl, first⟩, second⟩
        exact ⟨_, rfl, before, after, rfl, first, second⟩
    | part power expr =>
      simp only [List.cons_append, Fills, continued]
      constructor
      · rintro ⟨filling, _, rfl, segment, before, after, rfl, first, second⟩
        exact ⟨filling ++ before, after, by simp, ⟨filling, before, rfl, segment, first⟩, second⟩
      · rintro ⟨_, after, rfl, ⟨filling, before, rfl, segment, first⟩, second⟩
        exact ⟨filling, before ++ after, by simp, segment, before, after, rfl, first, second⟩

theorem fills_owned_iff {own pieces : List Piece} : Fills (owned own) pieces ↔ pieces = own := by
  induction own generalizing pieces with
  | nil => exact Iff.rfl
  | cons piece own continued =>
    simp only [owned, List.map_cons, Fills] at continued ⊢
    simp [continued]

/-- What fills layouts between separators are lists of pieces between them. -/
theorem fills_spread {separator : List Piece} {layouts : List (List Written)}
    {pieces : List Piece} (fills : Fills (spread separator layouts) pieces) :
    ∃ lists, pieces = separated separator lists ∧ List.Forall₂ Fills layouts lists := by
  induction layouts generalizing pieces with
  | nil => exact ⟨[], fills, .nil⟩
  | cons layout layouts continued =>
    cases layouts with
    | nil => exact ⟨[pieces], rfl, .cons fills .nil⟩
    | cons second rest =>
      rw [spread, List.append_assoc, fills_append_iff] at fills
      · obtain ⟨before, _, rfl, first, fills⟩ := fills
        obtain ⟨_, after, rfl, own, fills⟩ := fills_append_iff.mp fills
        obtain ⟨_, rfl, others⟩ := continued fills
        cases others with
        | @cons _ list _ lists here there =>
          refine ⟨before :: list :: lists, ?_, .cons first (.cons here there)⟩
          rw [fills_owned_iff.mp own]
          exact (List.append_assoc _ _ _).symm
      · exact List.cons_ne_nil _ _

/-! ### Layouts without seams -/

/-- Whether a layout is a segment whatever fills it. -/
def Seamless (first last : Edge) (layout : List Written) : Prop :=
  ∀ pieces, Fills layout pieces → Segment first last pieces

namespace Seamless

variable {first middle last : Edge}

theorem nil : Seamless last last [] := by
  rintro _ rfl
  exact .nil

theorem append {before after : List Written} (seamless : Seamless first middle before)
    (continued : Seamless middle last after) : Seamless first last (before ++ after) := by
  intro pieces fills
  obtain ⟨pieces, others, rfl, here, there⟩ := fills_append_iff.mp fills
  exact (seamless _ here).append (continued _ there)

theorem own {pieces : List Piece} (segment : Segment first last pieces) :
    Seamless first last (owned pieces) := by
  intro others fills
  rwa [fills_owned_iff.mp fills]

theorem part (power : Nat) (expr : Spanned Expr) :
    Seamless .operand .separator [.part power expr] := by
  rintro _ ⟨filling, _, rfl, segment, rfl⟩
  rwa [List.append_nil]

theorem segments {layouts : List (List Written)} {lists : List (List Piece)}
    (each : ∀ layout ∈ layouts, Seamless .operand .separator layout)
    (fills : List.Forall₂ Fills layouts lists) :
    ∀ list ∈ lists, Segment .operand .separator list := by
  induction fills with
  | nil => exact List.forall_mem_nil _
  | cons here _ continued =>
    exact List.forall_mem_cons.mpr ⟨each _ List.mem_cons_self _ here,
      continued fun other member => each other (List.mem_cons_of_mem _ member)⟩

section Lists

variable {layouts : List (List Written)}
  (each : ∀ layout ∈ layouts, Seamless .operand .separator layout)

include each

theorem list {opening closing : List Piece}
    (around : ∀ lists, (∀ list ∈ lists, Segment .operand .separator list) →
      (layouts = [] ↔ lists = []) → Segment first last (opening ++ commas lists ++ closing)) :
    Seamless first last
      (owned opening ++ listed layouts ++ owned closing) := by
  intro pieces fills
  obtain ⟨_, after, rfl, fills, closes⟩ := fills_append_iff.mp fills
  obtain ⟨before, inner, rfl, opens, fills⟩ := fills_append_iff.mp fills
  obtain ⟨lists, rfl, filled⟩ := fills_spread fills
  rw [fills_owned_iff.mp opens, fills_owned_iff.mp closes]
  refine around lists (segments each filled) ?_
  cases filled <;> simp

theorem inParens : Seamless .separator last (listedInParens layouts) :=
  list each fun _ segments _ => Segment.parens segments

theorem inBraces : Seamless .separator last (listedInBraces layouts) := by
  cases layouts with
  | nil => exact own (Segment.braces (List.forall_mem_nil _))
  | cons layout layouts =>
    refine list each fun lists segments same => ?_
    obtain ⟨list, lists, rfl⟩ := List.exists_cons_of_ne_nil (mt same.mpr (List.cons_ne_nil _ _))
    exact Segment.braces segments

theorem inWideBraces : Seamless .separator last (listedInWideBraces layouts) := by
  cases layouts with
  | nil => exact own (Segment.wideBraces (List.forall_mem_nil _))
  | cons layout layouts => exact inBraces each

end Lists

theorem exprs (exprs : List (Spanned Expr)) :
    ∀ layout ∈ parts exprs, Seamless .operand .separator layout :=
  List.forall_mem_map.mpr fun expr _ => part 0 expr

theorem statements (statements : List (Spanned Expr)) :
    Seamless .separator .separator (statementLayout statements) := by
  induction statements with
  | nil => exact nil
  | cons statement others continued =>
    exact ((((own .space).append (part 0 statement)).append
      (own (Segment.free .semicolon rfl)))).append continued

end Seamless

/-! ### Trees in shape -/

theorem BinaryOperator.wellFormed (operator : BinaryOperator) : operator.token.WellFormed := by
  cases operator <;> trivial

theorem Segment.float_of_isLiteral {value : Binary64} (literal : value.IsLiteral) :
    Segment .operand .separator (Piece.float value) :=
  Segment.float (readBinary64?_sourceDigits literal.1 literal.2)

theorem Segment.name {name : String} (isName : IsName name) :
    Segment .operand .separator [Piece.ident name] := .ident (isName_iff.mp isName)

theorem Segment.string {content : String} (unquoted : '"' ∉ content.toList) :
    Segment .operand .separator [Piece.token (.string content)] := .operand unquoted nofun

theorem Segment.chosen {enumeration chosen : String} (first : IsName enumeration)
    (second : IsName chosen) :
    Segment .operand .separator (ContractSyntax.variantPieces enumeration chosen) :=
  Segment.variantPieces (isName_iff.mp first) (isName_iff.mp second)

theorem Segment.nameMember {name : String} (isName : IsName name) :
    Segment .separator .separator [sign .dot, Piece.ident name] :=
  .member (isName_iff.mp isName) nofun isName.1

theorem Pattern.Shaped.segment {pattern : Pattern} (shaped : pattern.Shaped) :
    Segment .operand .separator pattern.pieces := by
  cases pattern with
  | wildcard => exact .word _
  | bind => exact .name shaped
  | literal value =>
    cases value with
    | int => exact .int _
    | float => exact .float_of_isLiteral shaped
    | string => exact .string shaped
    | bool => exact .bool _
  | variant enumeration chosen bindings =>
    obtain ⟨first, second, names⟩ := shaped
    cases bindings with
    | none => exact .chosen first second
    | some bindings =>
      exact (Segment.chosen first second).append
        (.parens (List.forall_mem_map.mpr fun name member => .name (names _ rfl name member)))

section Layouts

variable {demand : Demand}

open Seamless in
theorem Ty.Shaped.seamless : {type : Ty} → type.Shaped demand →
    Seamless .operand .separator type.layout
  | .primitive base, _ => own (.word base.word)
  | .unit, _ =>
    own (.cons (.free .leftParen rfl : Segment _ .operand _) (.free .rightParen rfl))
  | .named _, shaped => own (.name shaped)
  | .reference _, shaped =>
    (own (.free .ampersand rfl)).append (Ty.Shaped.seamless shaped)
  | .mutableReference _, shaped =>
    (own ((Segment.free .ampersand rfl : Segment _ .operand _).cons (.leading .mut_))).append
      (Ty.Shaped.seamless shaped)
  | .array element _, shaped => by
    have inner : element.Shaped demand := shaped
    exact ((own (.free .leftBracket rfl)).append inner.seamless).append
      (own (((Segment.trailing .semicolon nofun).append (.int _)).append
        (.free .rightBracket rfl)))
  | .refined base constraints, _ =>
    (own (.word base.word)).append (inBraces (exprs constraints))

theorem seamless_stated {type : Option (Spanned Ty)}
    (shaped : ∀ stated ∈ type, stated.node.Shaped demand) :
    Seamless .separator .separator (statedLayout type) := by
  cases type with
  | none => exact .nil
  | some type =>
    exact (Seamless.own (.trailing .colon nofun)).append (shaped type rfl).seamless

theorem MatchArm.Shaped.seamless {arm : MatchArm} (shaped : arm.Shaped demand) :
    Seamless .operand .separator arm.layout := by
  obtain ⟨pattern, body⟩ := arm
  exact (Seamless.own (shaped.1.segment.append (.amidSymbol .fatArrow))).append (.part 0 body)

theorem FieldValue.Shaped.seamless {field : FieldValue} (shaped : field.Shaped demand) :
    Seamless .operand .separator field.layout := by
  obtain ⟨name, value⟩ := field
  exact (Seamless.own ((Segment.name shaped.1).append (.trailing .colon nofun))).append
    (.part 0 value)

theorem UnaryOperator.seamless (operator : UnaryOperator) :
    Seamless .operand .operand (owned operator.pieces) := by
  refine .own ?_
  cases operator with
  | negate => exact .minus
  | not => exact .leading .not_
  | reference => exact .free .ampersand rfl
  | mutableReference =>
    exact (Segment.free .ampersand rfl : Segment _ .operand _).cons (.leading .mut_)
  | dereference => exact .free .star rfl

open Seamless in
/-- The layout of an expression in shape is a segment, whatever stands in its parts. -/
theorem Expr.Shaped.seamless {expr : Expr} {role : Role} (shaped : expr.Shaped demand role) :
    Seamless .operand .separator expr.layout := by
  cases expr with
  | int => exact own (.int _)
  | float => exact own (.float_of_isLiteral shaped)
  | string => exact own (.string shaped)
  | bool => exact own (.bool _)
  | unit =>
    exact own (.cons (.free .leftParen rfl : Segment _ .operand _) (.free .rightParen rfl))
  | var => exact own (.name shaped)
  | ret | it => exact own (.word _)
  | binary left operator right =>
    exact ((part _ left).append (own (.amid operator.wellFormed))).append (part _ right)
  | unary operator operand => exact operator.seamless.append (part _ operand)
  | conditional condition yes no =>
    exact (((((own (.leading .if_)).append (part 0 condition)).append
      (own (.amidWord .then_))).append (part 0 yes)).append
      (own (.amidWord .else_))).append (part 0 no)
  | binding isMutable name type value body =>
    obtain ⟨_, isName, typed, _, _⟩ := shaped_binding.mp shaped
    have marked : Segment .operand .operand (if isMutable then [word .mut_, space] else []) := by
      cases isMutable with
      | false => exact .nil
      | true => exact .leading .mut_
    exact (((((own (((Segment.leading .let_).append marked).append (.name isName))).append
      (seamless_stated typed)).append (own (.amidSymbol .equal))).append (part 0 value)).append
      (own (.trailing .semicolon nofun))).append (part 0 body)
  | matching subject arms =>
    refine (((own (.leading .match_)).append (part 0 subject)).append (own .space)).append
      (inWideBraces (List.forall_mem_map.mpr fun arm member => ?_))
    exact (armsShaped_iff.mp shaped.2 arm member).seamless
  | whileLoop condition body =>
    exact (((own (.leading .while_)).append (part 0 condition)).append (own .space)).append
      (inBraces (List.forall_mem_singleton.mpr (part 0 body)))
  | forLoop name range body =>
    exact (((own ((Segment.leading .for_).append
      ((Segment.name shaped.1).append (.amidWord .in_)))).append (part 0 range)).append
      (own .space)).append (inBraces (List.forall_mem_singleton.mpr (part 0 body)))
  | block items last =>
    have opens : Seamless .operand .separator (owned [sign .leftBrace]) :=
      own (.free .leftBrace rfl)
    have closes : Seamless .separator .separator
        (owned [space, sign .rightBrace]) :=
      own (.cons .space (.free .rightBrace rfl : Segment .operand _ _))
    cases last with
    | none =>
      cases items with
      | nil =>
        exact own (.cons (.free .leftBrace rfl : Segment _ .operand _) (.free .rightBrace rfl))
      | cons statement others => exact (opens.append (statements _)).append closes
    | some last =>
      cases items <;>
      exact (((opens.append (statements _)).append (own .space)).append (part 0 last)).append
        closes
  | assign name value =>
    exact (own ((Segment.name shaped.2.1).append (.amidSymbol .equal))).append (part 0 value)
  | methodCall receiver method given =>
    exact ((part _ receiver).append (own (.nameMember shaped.2.2.1))).append
      (inParens (exprs given))
  | field receiver name => exact (part _ receiver).append (own (.nameMember shaped.2.2))
  | index receiver position =>
    exact (((part _ receiver).append (own (.free .leftBracket rfl))).append
      (part 0 position)).append (own (.free .rightBracket rfl))
  | state receiver moment =>
    exact (part _ receiver).append (own (.keywordMember moment.word))
  | call function given =>
    exact (own (.name shaped.1)).append (inParens (exprs given))
  | variant enumeration chosen given =>
    cases given with
    | none => exact own (.chosen shaped.1 shaped.2)
    | some given =>
      exact (own (.chosen shaped.1 shaped.2.1)).append (inParens (exprs given))
  | construct struct fields =>
    refine (own ((Segment.leading .new).append ((Segment.name shaped.1).append .space))).append
      (inBraces (List.forall_mem_map.mpr fun field member => ?_))
    exact (fieldsShaped_iff.mp shaped.2 field member).seamless
  | array elements =>
    exact list (exprs elements) fun _ segments _ =>
      .enclosed (fun _ => .free .leftBracket rfl) (.free .rightBracket rfl) segments
  | paren inner =>
    exact ((own (.free .leftParen rfl)).append (part 0 inner)).append
      (own (.free .rightParen rfl))

/-! ### Parts of trees in shape -/

variable {power : Nat} {expr : Spanned Expr}

theorem Ty.Shaped.of_mem_constraints {type : Ty} (shaped : type.Shaped demand)
    (member : expr ∈ type.constraints) : expr.node.Shaped demand .value := by
  cases type with
  | primitive | unit | named => exact absurd member List.not_mem_nil
  | reference target | mutableReference target | array target =>
    have inner : target.Shaped demand := shaped
    exact inner.of_mem_constraints member
  | refined base constraints => exact exprsShaped_iff.mp shaped.2 expr member

/-- An operand is what its place demands. -/
theorem Expr.Shaped.of_mem_operands {whole : Expr} {role : Role}
    (shaped : whole.Shaped demand role) (member : (power, expr) ∈ whole.operands) :
    demand power expr.node ∧ expr.node.Shaped demand .value := by
  cases whole with
  | binary =>
    obtain ⟨loose, tight, first, second⟩ := shaped
    simp only [operands, List.mem_cons, Prod.mk.injEq, List.not_mem_nil, or_false] at member
    rcases member with ⟨rfl, rfl⟩ | ⟨rfl, rfl⟩
    · exact ⟨loose, first⟩
    · exact ⟨tight, second⟩
  | unary | state =>
    cases List.mem_singleton.mp member
    exact shaped
  | methodCall | field | index =>
    cases List.mem_singleton.mp member
    exact ⟨shaped.1, shaped.2.1⟩
  | _ => exact absurd member List.not_mem_nil

theorem Expr.Shaped.of_mem_members {whole : Expr} {role : Role}
    (shaped : whole.Shaped demand role) (member : expr ∈ whole.members) :
    ∃ role, expr.node.Shaped demand role := by
  cases whole with
  | conditional | whileLoop | forLoop | index | assign | paren =>
    simp only [members, List.mem_cons, List.not_mem_nil, or_false] at member
    simp only [Expr.Shaped] at shaped
    refine ⟨.value, ?_⟩
    grind
  | binding isMutable name type value body =>
    obtain ⟨_, _, typed, given, rest⟩ := shaped_binding.mp shaped
    cases type with
    | none =>
      simp only [members, List.mem_cons, List.not_mem_nil, or_false] at member
      rcases member with rfl | rfl
      · exact ⟨_, given⟩
      · exact ⟨_, rest⟩
    | some type =>
      simp only [members, List.mem_append, List.mem_cons, List.not_mem_nil, or_false] at member
      rcases member with stated | rfl | rfl
      · exact ⟨_, (typed type rfl).of_mem_constraints stated⟩
      · exact ⟨_, given⟩
      · exact ⟨_, rest⟩
  | matching subject arms =>
    rcases List.mem_cons.mp member with rfl | inside
    · exact ⟨_, shaped.1⟩
    · obtain ⟨⟨pattern, body⟩, among, rfl⟩ := List.mem_map.mp inside
      exact ⟨_, (armsShaped_iff.mp shaped.2 _ among).2⟩
  | block statements last =>
    obtain ⟨each, final⟩ := shaped_block.mp shaped
    rcases List.mem_append.mp member with among | among
    · exact ⟨_, each expr among⟩
    · exact ⟨_, final expr (Option.mem_toList.mp among)⟩
  | methodCall receiver method given => exact ⟨_, exprsShaped_iff.mp shaped.2.2.2 expr member⟩
  | call function given => exact ⟨_, exprsShaped_iff.mp shaped.2 expr member⟩
  | array given => exact ⟨_, exprsShaped_iff.mp shaped expr member⟩
  | variant enumeration chosen given =>
    cases given with
    | none => exact absurd member List.not_mem_nil
    | some given => exact ⟨_, exprsShaped_iff.mp shaped.2.2 expr member⟩
  | construct struct fields =>
    obtain ⟨⟨name, value⟩, among, rfl⟩ := List.mem_map.mp member
    exact ⟨_, (fieldsShaped_iff.mp shaped.2 _ among).2⟩
  | _ => exact absurd member List.not_mem_nil

/-- What stands in the layout of an expression in shape is in shape. -/
theorem Expr.Shaped.of_mem_layout {whole : Expr} {role : Role} (shaped : whole.Shaped demand role)
    (member : .part power expr ∈ whole.layout) : ∃ role, expr.node.Shaped demand role :=
  (part_mem_layout.mp member).elim (fun operand => ⟨_, (shaped.of_mem_operands operand).2⟩)
    fun inner => shaped.of_mem_members inner.2

theorem Expr.Shaped.demanded {whole : Expr} {role : Role} (shaped : whole.Shaped demand role)
    (member : .part power expr ∈ whole.layout) (positive : 0 < power) :
    demand power expr.node := by
  rcases part_mem_layout.mp member with operand | ⟨rfl, _⟩
  · exact (shaped.of_mem_operands operand).1
  · exact absurd positive (Nat.lt_irrefl 0)

/-! ### Printed trees in shape -/

/-- Parentheses are a segment around any segment. -/
theorem Segment.parenthesized {pieces : List Piece} (segment : Segment .operand .separator pieces)
    (needed : Bool) : Segment .operand .separator (Piece.parenthesized needed pieces) := by
  cases needed with
  | false => exact segment
  | true => exact ((Segment.free .leftParen rfl).append segment).append (.free .rightParen rfl)

theorem fills_write {layout : List Written}
    (each : ∀ power expr, .part power expr ∈ layout →
      Segment .operand .separator expr.node.pieces) : Fills layout (write layout) := by
  induction layout with
  | nil => rfl
  | cons written rest continued =>
    have rest := continued fun power expr member => each power expr (List.mem_cons_of_mem _ member)
    cases written with
    | own piece => exact ⟨_, rfl, rest⟩
    | part power expr =>
      exact ⟨_, _, write_part power expr _,
        (each power expr List.mem_cons_self).parenthesized _, rest⟩

/-- An expression in shape is printed as a segment, whatever its operands are. -/
theorem Expr.Shaped.segment {whole : Expr} {role : Role} (shaped : whole.Shaped demand role) :
    Segment .operand .separator whole.pieces := by
  induction whole using Expr.induct generalizing role with
  | step whole each =>
    rw [← write_layout]
    refine shaped.seamless _ (fills_write fun power expr member => ?_)
    obtain ⟨role, inner⟩ := shaped.of_mem_layout member
    exact each power expr member inner

/-- And it is one with any other segment in the place of what stands in its layout. -/
theorem Expr.Shaped.refilled {whole : Expr} {role : Role} (shaped : whole.Shaped demand role)
    {front back : List Written} (laid : whole.layout = front ++ .part power expr :: back)
    {filling : List Piece} (segment : Segment .operand .separator filling) :
    Segment .operand .separator (write front ++ filling ++ write back) := by
  have each : ∀ power expr, .part power expr ∈ whole.layout →
      Segment .operand .separator expr.node.pieces := fun power expr member => by
    obtain ⟨role, inner⟩ := shaped.of_mem_layout member
    exact inner.segment
  have seamless := shaped.seamless
  rw [laid] at each seamless
  refine seamless _ ?_
  rw [List.append_assoc]
  refine fills_append_iff.mpr ⟨_, _, rfl, fills_write fun power other member =>
    each power other (List.mem_append_left _ member), _, _, rfl, segment, ?_⟩
  exact fills_write fun power other member =>
    each power other (List.mem_append_right _ (List.mem_cons_of_mem _ member))

theorem Ty.Shaped.segment {type : Ty} (shaped : type.Shaped demand) :
    Segment .operand .separator type.pieces := by
  rw [← write_layout]
  exact shaped.seamless _ (fills_write fun power expr member =>
    (shaped.of_mem_constraints (part_mem_layout.mp member).2).segment)

end Layouts

end ContractSyntax
