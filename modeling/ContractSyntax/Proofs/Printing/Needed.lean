/-
**No parentheses are added that could be left out.**

Printing adds parentheses around an operand that binds less tightly than its place demands. Take one
such pair out of the printed text. If the text is read at all, the tree is another one, also without
its own parentheses and spans. For a tree that is the same without these has the same tokens but for
parentheses, and if it was read it has parentheses around every such operand; but then the tokens of
the operand stand deeper in them than they do in the text.

* `Expr.Added`: the pairs of parentheses that printing adds to an expression;
* `Expr.Shaped.depths_ne_of_loose`: an operand that binds too loosely stands at another depth without
  parentheses than with them;
* `Expr.Added.depths_ne`: without one of them, tokens stand at other depths than in what is read;
* `added_needed`: leaving out one of them changes the tree.
-/

import ContractSyntax.Proofs.Printing.Depth
import ContractSyntax.Proofs.Printing.Preservation
import ContractSyntax.Proofs.Printing.Reread
import ContractSyntax.Proofs.Shape.Calls

namespace ContractSyntax

open Piece

/-! ### Added parentheses -/

/-- The parenthesis before pieces where it is needed. -/
def opened (needed : Bool) : List Piece := if needed then [sign .leftParen] else []

/-- The parenthesis behind pieces where it is needed. -/
def closed (needed : Bool) : List Piece := if needed then [sign .rightParen] else []

theorem parenthesized_eq (needed : Bool) (pieces : List Piece) :
    parenthesized needed pieces = opened needed ++ pieces ++ closed needed := by
  cases needed with
  | false => exact (List.append_nil pieces).symm
  | true => rfl

/-- A pair of parentheses that printing adds to an expression: what is printed before it, the
expression in it, and what is printed behind it. -/
inductive Expr.Added : Expr → List Piece → Expr → List Piece → Prop
  /-- A pair around an operand that binds less tightly than its place demands. -/
  | here {whole : Expr} {front back : List Written} {power : Nat} {operand : Spanned Expr}
      (laid : whole.layout = front ++ .part power operand :: back)
      (loose : operand.node.power < power) :
      Added whole (write front) operand.node (write back)
  /-- A pair that is added to what stands in the layout of the expression. -/
  | inside {whole operand : Expr} {front back : List Written} {power : Nat} {part : Spanned Expr}
      {before after : List Piece}
      (laid : whole.layout = front ++ .part power part :: back)
      (added : Added part.node before operand after) :
      Added whole (write front ++ (opened (part.node.power < power) ++ before)) operand
        (after ++ closed (part.node.power < power) ++ write back)

namespace Expr.Added

variable {whole operand : Expr} {before after : List Piece}

/-- The printed text with the pair in it. -/
theorem pieces_eq (added : whole.Added before operand after) :
    whole.pieces = before ++ parenthesized true operand.pieces ++ after := by
  induction added with
  | here laid loose =>
    rw [← write_layout, laid, write_append, write_part, decide_eq_true loose, List.append_assoc]
  | inside laid _ continued =>
    rw [← write_layout, laid, write_append, write_part, continued, parenthesized_eq]
    simp only [List.append_assoc]

/-- The text without the pair has the same marks but for parentheses. -/
theorem plain_eq (added : whole.Added before operand after) :
    plain (marked (before ++ operand.pieces ++ after)) = plain (marked whole.pieces) := by
  rw [added.pieces_eq]
  simp

theorem mem_layout {front back : List Written} {power : Nat} {part : Spanned Expr}
    (laid : whole.layout = front ++ .part power part :: back) : .part power part ∈ whole.layout :=
  laid ▸ List.mem_append_cons_self

/-- The text without the pair is legible. -/
theorem segment {demand : Demand} {role : Role} (added : whole.Added before operand after)
    (shaped : whole.Shaped demand role) :
    Segment .operand .separator (before ++ operand.pieces ++ after) := by
  induction added generalizing role with
  | here laid _ =>
    obtain ⟨role, inner⟩ := shaped.of_mem_layout (mem_layout laid)
    exact shaped.refilled laid inner.segment
  | @inside _ _ _ _ power part _ _ laid _ continued =>
    obtain ⟨role, inner⟩ := shaped.of_mem_layout (mem_layout laid)
    have whole :=
      shaped.refilled laid ((continued inner).parenthesized (part.node.power < power))
    simpa only [parenthesized_eq, List.append_assoc] using whole

end Expr.Added

/-! ### Depths without a pair -/

/-- An expression in parentheses of its own is another one that stands deeper. -/
theorem Expr.Shaped.peeled {found : Expr} {role : Role} (shaped : found.Shaped .bare role) :
    ∃ (count : Nat) (inner : Expr) (role : Role), inner.isParen = false ∧
      inner.core = found.core ∧ inner.Shaped .bare role ∧ (count = 0 → inner = found) ∧
      ∀ depth, depths depth (marked found.pieces) = depths (depth + count) (marked inner.pieces) := by
  induction found using Expr.induct generalizing role with
  | step found each =>
    cases isParen : found.isParen with
    | false => exact ⟨0, found, role, isParen, rfl, shaped, fun _ => rfl, fun depth => by simp⟩
    | true =>
      cases found with
      | paren expr =>
        have shaped : expr.node.Shaped .bare .value := shaped
        obtain ⟨count, inner, role, other, core, shaped, _, deeper⟩ :=
          each 0 expr (by simp [layout]) shaped
        refine ⟨count + 1, inner, role, other, core, shaped,
          fun zero => absurd zero (Nat.succ_ne_zero _), fun depth => ?_⟩
        rw [pieces_paren, List.singleton_append, depths_paren, deeper, Int.natCast_succ,
          Int.add_assoc, Int.add_comm 1]
      | _ => cases isParen

/-- What stands in the layout of an expression stands in the same place in every expression that is
the same without parentheses and spans. -/
theorem Expr.Shaped.corresponds {whole found : Expr} {role : Role}
    (shaped : found.Shaped .bare role) (other : whole.isParen = false)
    (same : found.core = whole.core) {front back : List Written} {power : Nat}
    {part : Spanned Expr} (laid : whole.layout = front ++ .part power part :: back) :
    ∃ (count : Nat) (front' : List Written) (part' : Spanned Expr) (back' : List Written),
      front.map Written.face = front'.map Written.face ∧ part.node.core = part'.node.core ∧
      back.map Written.face = back'.map Written.face ∧
      (∃ role, part'.node.Shaped .bare role) ∧ (0 < power → power ≤ part'.node.power) ∧
      ∀ depth, depths depth (marked found.pieces) = depths (depth + count)
        (marked (write front' ++ parenthesized (part'.node.power < power) part'.node.pieces ++
          write back')) := by
  obtain ⟨count, inner, role, noParen, core, shaped, _, deeper⟩ := shaped.peeled
  have layouts : replaced coreInPlace whole.layout = replaced coreInPlace inner.layout := by
    rw [← layout_core other, ← layout_core noParen, core, same]
  rw [laid] at layouts
  obtain ⟨front', part', back', laid', fronts, cores, backs⟩ := split_part layouts
  have member := Added.mem_layout laid'
  refine ⟨count, front', part', back', fronts, cores, backs, shaped.of_mem_layout member,
    fun positive => (shaped.demanded member positive).2, fun depth => ?_⟩
  rw [deeper, ← inner.write_layout, laid', write_append, write_part, List.append_assoc]

/-- Only an expression with tokens of its own that are marks demands anything of what is in it. -/
theorem Expr.of_demanding {whole : Expr} {power : Nat} {operand : Spanned Expr}
    (member : .part power operand ∈ whole.layout) (positive : 0 < power) :
    whole.isParen = false ∧ whole ≠ .unit := by
  rcases mem_operands member with rfl | inside
  · exact absurd positive (Nat.lt_irrefl 0)
  · cases whole with
    | unit | paren => exact absurd inside List.not_mem_nil
    | _ => exact ⟨rfl, by rintro ⟨⟩⟩

/-- What binds less tightly than an expression without operators is no expression in parentheses. -/
theorem Expr.of_power_lt {expr : Expr} (loose : expr.power < operandPower) :
    expr.isParen = false ∧ expr ≠ .unit := by
  cases expr with
  | unit | paren => exact absurd loose (Nat.lt_irrefl _)
  | _ => exact ⟨rfl, by rintro ⟨⟩⟩

theorem Expr.of_paren {inner part : Spanned Expr} {front back : List Written} {power : Nat}
    (laid : (paren inner).layout = front ++ .part power part :: back) :
    front = owned [sign .leftParen] ∧ power = 0 ∧ part = inner ∧
      back = owned [sign .rightParen] := by
  rcases front with _ | ⟨first, _ | ⟨second, _ | ⟨third, rest⟩⟩⟩ <;>
    simp_all [layout, owned]

/-- Expressions that are the same without parentheses and spans, and are not in parentheses, begin at
the same depth if they are written with the same depths. -/
theorem Expr.depth_eq_of_core {first second : Expr} (noParen : first.isParen = false)
    (some : first ≠ .unit) (noParen' : second.isParen = false) (same : first.core = second.core)
    {depth depth' : Int}
    (equal : depths depth (marked first.pieces) = depths depth' (marked second.pieces)) :
    depth = depth' := by
  obtain ⟨piece, own, isMark⟩ := exists_mark noParen some
  have layouts : replaced coreInPlace first.layout = replaced coreInPlace second.layout := by
    rw [← layout_core noParen, ← layout_core noParen', same]
  exact depth_unique own isMark (faces_of_replaced_core layouts)
    (by rwa [first.write_layout, second.write_layout])

/-- Where an operand that binds too loosely for its place is written without parentheses, tokens are
at other depths than in the text of an expression that has parentheses there. -/
theorem Expr.Shaped.depths_ne_of_loose {whole found : Expr} {role : Role}
    (shaped : found.Shaped .bare role) (same : found.core = whole.core)
    {front back : List Written} {power : Nat} {operand : Spanned Expr}
    (laid : whole.layout = front ++ .part power operand :: back) (loose : operand.node.power < power)
    (depth depth' : Int) :
    depths depth (marked (write front ++ operand.node.pieces ++ write back)) ≠
      depths depth' (marked found.pieces) := by
  intro equal
  have member := Added.mem_layout laid
  have small : power ≤ operandPower := power_le_of_mem_layout member
  have positive : 0 < power := Nat.lt_of_le_of_lt (Nat.zero_le _) loose
  obtain ⟨noParen, some⟩ : whole.isParen = false ∧ whole ≠ .unit := of_demanding member positive
  obtain ⟨noParen', some'⟩ : operand.node.isParen = false ∧ operand.node ≠ .unit :=
    of_power_lt (Nat.lt_of_lt_of_le loose small)
  obtain ⟨count, front', part', back', fronts, cores, backs, ⟨role, inner⟩, tight, deeper⟩ :=
    shaped.corresponds noParen same laid
  rw [deeper, decide_eq_false (Nat.not_lt.mpr (tight positive)), parenthesized_false] at equal
  -- a token of the whole's own tells how deep the whole stands
  have outer : depth = depth' + count := by
    obtain ⟨piece, own, isMark⟩ := exists_mark noParen some
    have faces : (front ++ .part 0 operand :: back).map Written.face =
        (front' ++ .part 0 part' :: back').map Written.face := by
      simp [fronts, backs, Written.face, cores]
    refine depth_unique ?_ isMark faces (by simpa using equal)
    rw [laid] at own
    simpa using own
  -- and one of the operand's own, how deep the operand does
  obtain ⟨shift, between⟩ := depths_between fronts
    (by rw [← plain_core, cores, plain_core]) equal
  obtain ⟨count', bare, _, other, core, _, unpeeled, deeper'⟩ := inner.peeled
  rw [deeper'] at between
  have within : depth + shift = depth' + count + shift + count' :=
    depth_eq_of_core noParen' some' other (by rw [core, cores]) between
  -- so nothing is around the operand, which then binds too loosely
  obtain rfl := unpeeled (by omega)
  have powers : part'.node.power = operand.node.power := by
    rw [← power_core other, ← power_core noParen', cores]
  exact absurd (powers ▸ tight positive) (Nat.not_le.mpr loose)

namespace Expr.Added

variable {whole operand : Expr} {before after : List Piece}

/-- The text without the pair has tokens at other depths than the text of any expression that is the
same without parentheses and spans and has parentheses wherever its places demand them. -/
theorem depths_ne (added : whole.Added before operand after) {found : Expr} {role : Role}
    (shaped : found.Shaped .bare role) (same : found.core = whole.core) (depth depth' : Int) :
    depths depth (marked (before ++ operand.pieces ++ after)) ≠
      depths depth' (marked found.pieces) := by
  induction added generalizing found role depth depth' with
  | here laid loose => exact shaped.depths_ne_of_loose same laid loose depth depth'
  | @inside whole operand front back power part before after laid added continued =>
    intro equal
    have alike := added.plain_eq
    have gathered : write front ++ (opened (part.node.power < power) ++ before) ++ operand.pieces ++
        (after ++ closed (part.node.power < power) ++ write back) =
        write front ++ parenthesized (part.node.power < power)
          (before ++ operand.pieces ++ after) ++ write back := by
      simp only [parenthesized_eq, List.append_assoc]
    rw [gathered] at equal
    cases isParen : whole.isParen with
    | false =>
      obtain ⟨count, front', part', back', fronts, cores, _, ⟨role, inner⟩, _, deeper⟩ :=
        shaped.corresponds isParen same laid
      rw [deeper] at equal
      obtain ⟨shift, between⟩ := depths_between fronts
        (by simp only [plain_parenthesized, alike]; rw [← plain_core, cores, plain_core]) equal
      rw [depths_parenthesized, depths_parenthesized] at between
      exact continued inner cores.symm _ _ between
    | true =>
      cases whole with
      | paren inner =>
        obtain ⟨rfl, rfl, rfl, rfl⟩ : front = owned [sign .leftParen] ∧ power = 0 ∧ part = inner ∧
            back = owned [sign .rightParen] := of_paren laid
        have within : depths (depth + 1) (marked (before ++ operand.pieces ++ after)) =
            depths depth' (marked found.pieces) := by
          rw [← equal, ← depths_paren]
          simp
        exact continued shaped same _ _ within
      | _ => cases isParen

end Expr.Added

/-! ### Like texts -/

/-- What some tokens count as has the same parentheses as the tokens have. -/
theorem parens_contents (tokens : List Token) :
    (contents tokens).filter Content.isParen = (marks tokens).filter Content.isParen := by
  induction tokens with
  | nil => rfl
  | cons first rest continued =>
    unfold contents at continued ⊢
    rw [dropCommas]
    split
    · next dropped => rw [continued, dropped.1, marks_comma]
    · cases comma : first.isComma with
      | true =>
        obtain rfl : first = .symbol .comma := by
          unfold Token.isComma at comma
          split at comma
          · rfl
          · cases comma
        exact continued
      | false =>
        rw [marks_cons comma]
        cases brace : first.isBrace with
        | false => simp only [List.filter_cons, brace, List.map_cons, Bool.not_false, if_true, continued]
        | true =>
          have noParen : first.content.isParen = false := by
            unfold Token.isBrace at brace
            split at brace <;> first | rfl | cases brace
          simp [brace, noParen, continued]

/-- Rows that are alike are the same but for commas if they have as many marks other than
parentheses. -/
theorem Alike.marks_eq {first second : List Token} (alike : Alike first second)
    (same : (plain (marks first)).length = (plain (marks second)).length) :
    marks first = marks second := by
  have parens := congrArg (List.filter Content.isParen) alike.contents_eq
  rw [parens_contents, parens_contents] at parens
  refine alike.marked.eq_of_length ?_
  rw [List.length_eq_length_filter_add Content.isParen, parens,
    @List.length_eq_length_filter_add _ (marks second) Content.isParen]
  exact congrArg _ same

/-! ### Texts without a pair -/

/-- A pair of parentheses that printing adds is needed: the text without it is not read as an
expression, or as one that differs by more than parentheses and spans. -/
theorem added_needed {expr : Expr} (shaped : expr.Shaped .any .value) {before after : List Piece}
    {operand : Expr} (added : expr.Added before operand after) :
    expr.pieces = before ++ [sign .leftParen] ++ operand.pieces ++ [sign .rightParen] ++ after ∧
      ∀ found, (readExpr (render (before ++ operand.pieces ++ after))).value = .ok found →
        found.node.core ≠ expr.core := by
  refine ⟨by simp [added.pieces_eq, parenthesized], fun found read same => ?_⟩
  obtain ⟨places, height, lexed, derived⟩ := Derives.of_readExpr read
  obtain ⟨others, relexed, printed⟩ := tokenize_render (added.segment shaped).legible
  obtain rfl : places = others := Except.ok.inj (lexed.symm.trans relexed)
  have alike := derived.kept_expr.1
  rw [printed] at alike
  have marks : marked (before ++ operand.pieces ++ after) = marked found.node.pieces := by
    refine alike.marks_eq (congrArg List.length ?_)
    show plain (marked _) = plain (marked _)
    rw [added.plain_eq, ← expr.plain_core, ← same, found.node.plain_core]
  exact added.depths_ne (derived.shaped (wellFormed_of_tokenize lexed)) same 0 0 (by rw [marks])

/-- A sum that is a factor without being in parentheses. -/
def sumFactor : Spanned Expr :=
  ⟨.binary ⟨.var "a", nowhere⟩ .add ⟨.var "b", nowhere⟩, nowhere⟩

/-- A product with a sum for a factor. -/
def sumProduct : Expr := .binary sumFactor .multiply ⟨.var "c", nowhere⟩

theorem added_needed_of_sumProduct :
    sumProduct.text = "(a + b) * c" ∧ (readExpr "a + b * c").value.isOk = true ∧
      ∀ found, (readExpr "a + b * c").value = .ok found → found.node.core ≠ sumProduct.core := by
  have added : sumProduct.Added (write []) sumFactor.node
      (write (owned [space, sign .star, space] ++ [.part 7 ⟨.var "c", nowhere⟩])) :=
    .here rfl (show (5 : Nat) < 6 by decide)
  have text : render (write [] ++ sumFactor.node.pieces ++
      write (owned [space, sign .star, space] ++ [.part 7 ⟨.var "c", nowhere⟩])) = "a + b * c" := by
    decide +kernel
  have shaped : sumProduct.Shaped .any .value :=
    ⟨trivial, trivial, ⟨trivial, trivial, show IsName "a" by decide +kernel,
      show IsName "b" by decide +kernel⟩, show IsName "c" by decide +kernel⟩
  have needed := added_needed shaped added
  exact ⟨by decide +kernel, by decide +kernel, text ▸ needed.2⟩

end ContractSyntax
