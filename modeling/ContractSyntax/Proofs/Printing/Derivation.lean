/-
**Printed trees are derived again.**

The tokens of a printed tree make up the same tree, but for its spans. The induction is on the
derivation of the tree, so that each part is printed in the place it was read in. Only the rest of a
block after a binding is written in another way than it may have been read: a block of its own comes
out in braces, which is a value of the enclosing block without statements before it. So the printed
tokens open a level for every block, and the tree alone says how many levels they open.

* `Derives.reprinted`: for expressions and types, at every phrase of the grammar.
-/

import ContractSyntax.Proofs.Decimal.Digits
import ContractSyntax.Proofs.Nesting.Gauge
import ContractSyntax.Proofs.Printing.Tokens
import ContractSyntax.Proofs.Reading

namespace ContractSyntax

open Piece

/-- What is left without spans. -/
abbrev erase {α : Type} [Relocate α] (value : α) : α := relocate .erasure value

@[simp] theorem node_erase_name (name : Name) : (erase name).node = name.node := rfl

@[simp] theorem span_erase {α : Type} [Relocate α] (place : Spanned α) :
    (erase place).span = nowhere := rfl

/-! ### Lists -/

section Lists

variable {α : Type} [Relocate α] {meaning : Tokens → α → Nat → Prop} {pieces : α → List Piece}
  {measure : α → Nat}

theorem reprint_parts {values : List α}
    (each : ∀ value ∈ values,
      meaning (bare (tokens (pieces value))) (erase value) (measure value)) :
    ∃ parts : List (Part α),
      Commas (parts.map Part.tokens) (bare (tokens (commas (values.map pieces)))) ∧
      parts.map Part.value = erase values ∧
      highest (parts.map Part.height) = gaugedAll measure values ∧
      ∀ part ∈ parts, meaning part.tokens part.value part.height := by
  induction values with
  | nil => exact ⟨[], .none, rfl, rfl, List.forall_mem_nil _⟩
  | cons value values continued =>
    obtain ⟨parts, row, same, measured, others⟩ :=
      continued fun other member => each other (List.mem_cons_of_mem _ member)
    refine ⟨⟨bare (tokens (pieces value)), erase value, measure value⟩ :: parts, ?_, ?_,
      congrArg (max (measure value)) measured,
      List.forall_mem_cons.mpr ⟨each value List.mem_cons_self, others⟩⟩
    · cases values with
      | nil =>
        obtain rfl : parts = [] := List.map_eq_nil_iff.mp same
        exact .last _
      | cons second rest => simpa [commas, separated] using Commas.more _ nowhere row
    · rw [List.map_cons, same]
      rfl

theorem reprint_row {values : List α}
    (each : ∀ value ∈ values,
      meaning (bare (tokens (pieces value))) (erase value) (measure value)) :
    Row meaning (bare (tokens (commas (values.map pieces)))) (erase values)
      (gaugedAll measure values) := by
  obtain ⟨parts, row, same, measured, derived⟩ := reprint_parts each
  exact ⟨parts, row, same.symm, measured.symm, derived⟩

theorem reprint_names (names : List Name) :
    Commas ((erase names).map fun name => [name.ident])
      (bare (tokens (commas (names.map fun name => [ident name.node])))) := by
  induction names with
  | nil => exact .none
  | cons name names continued =>
    cases names with
    | nil => exact .last _
    | cons second rest =>
      exact .more [(erase name).ident] nowhere continued

theorem reprint_mark {word : Keyword} {isPresent : Bool} :
    Marks word isPresent (bare (if isPresent then [.keyword word] else [])) := by
  cases isPresent <;> rfl

end Lists

/-! ### Phrases -/

/-- A derivation over the tokens of the pieces, at no place, that opens so many levels. -/
def Rederived (phrase : Phrase) (pieces : List Piece) (tree : phrase.Tree) (levels : Nat) : Prop :=
  Derives phrase (bare (tokens pieces)) tree levels

theorem Rederived.of {phrase : Phrase} {pieces : List Piece} {places : Tokens}
    {tree same : phrase.Tree} {height levels : Nat} (derived : Derives phrase places tree height)
    (printed : places = bare (tokens pieces)) (erased : tree = same) (measured : height = levels) :
    Rederived phrase pieces same levels := by
  subst printed erased measured
  exact derived

/-- The tree of a phrase is derived again from its printed tokens, without its spans. -/
def Phrase.Reprinted (phrase : Phrase) (tree : phrase.Tree) : Prop :=
  match phrase, tree, phrase.gauged .levels tree with
  | expr, tree, levels => Rederived .expr tree.node.pieces (erase tree) levels
  | subexpr, tree, levels => Rederived .subexpr tree.node.pieces (erase tree) levels
  | tier power, tree, levels => Rederived (.tier power) tree.node.pieces (erase tree) levels
  | signed, tree, levels => Rederived .signed tree.node.pieces (erase tree) levels
  | suffixed, tree, levels => Rederived .suffixed tree.node.pieces (erase tree) levels
  | primary, tree, levels => Rederived .primary tree.node.pieces (erase tree) levels
  | field, tree, levels => Rederived .field tree.pieces (erase tree) levels
  | arm, tree, levels => Rederived .arm tree.pieces (erase tree) levels
  | type, tree, levels => Rederived .type tree.node.pieces (erase tree) levels
  | subtype, tree, levels => Rederived .subtype tree.node.pieces (erase tree) levels
  | stated, tree, levels => Rederived .stated (statedPieces tree) (erase tree) levels
  | binding _, tree, levels => Rederived (.binding 0) tree.node.pieces (erase tree) levels
  | rest _ _, tree, levels => Rederived (.rest 0 0) tree.node.pieces (erase tree) levels
  | items _, tree, levels => Rederived (.items 0) (itemsPieces tree.1 tree.2) (erase tree) levels

/-! ### Literals and patterns -/

theorem pieces_int {digits : String} {value : Int64} (read : readInt64? digits = some value) :
    ∃ printed, Piece.int value.toInt = [token (.int printed)] ∧ readInt64? printed = some value := by
  obtain ⟨small, rfl⟩ := readInt64?_eq_some_iff.mp read
  refine ⟨toString (digitsValue digits.toList), ?_, readInt64?_toString small⟩
  rw [toInt_ofNat small]
  simp [Piece.int, Int.not_lt.mpr (Int.natCast_nonneg _)]

theorem pieces_float {digits : String} {value : Binary64} (read : readBinary64? digits = some value) :
    ∃ printed, Piece.float value = [token (.float printed)] ∧ readBinary64? printed = some value := by
  obtain ⟨finite, positive⟩ := finite_of_readBinary64? read
  refine ⟨value.sourceDigits, ?_, readBinary64?_sourceDigits finite positive⟩
  simp [Piece.float, positive]

theorem pieces_least :
    Piece.int Int64.minValue.toInt =
      [sign .minus, token (.int "9223372036854775808")] := by decide

theorem Pattern.Derives.congr {first second : Tokens} {tree same : Spanned Pattern}
    (derived : Pattern.Derives first tree) (printed : first = second) (erased : tree = same) :
    Pattern.Derives second same :=
  printed ▸ erased ▸ derived

/-- A pattern is derived again from its printed tokens. -/
theorem Pattern.Derives.reprinted {places : Tokens} {pattern : Spanned Pattern}
    (derived : Pattern.Derives places pattern) :
    Pattern.Derives (bare (tokens pattern.node.pieces)) (erase pattern) := by
  cases derived with
  | int read =>
    obtain ⟨printed, same, read⟩ := pieces_int read
    exact (Pattern.Derives.int read nowhere).congr
      (by simp [Pattern.pieces, PatternLiteral.pieces, same]) rfl
  | float read =>
    obtain ⟨printed, same, read⟩ := pieces_float read
    exact (Pattern.Derives.float read nowhere).congr
      (by simp [Pattern.pieces, PatternLiteral.pieces, same]) rfl
  | string content => exact .string content nowhere
  | true => exact .true nowhere
  | false => exact .false nowhere
  | wildcard => exact .wildcard nowhere
  | bind name => exact .bind (erase name)
  | variant enumeration chosen => exact .variant (erase enumeration) (erase chosen) nowhere
  | @variantOf enumeration chosen _ _ _ bindings _ _ =>
    exact (Pattern.Derives.variantOf (erase enumeration) (erase chosen) nowhere nowhere nowhere
      (reprint_names bindings)).congr (by simp [Pattern.pieces, variantPieces]) rfl

/-! ### Expressions and types -/

/-- Whether an expression is a `let`. -/
def Expr.isBinding : Expr → Bool
  | binding .. => true
  | _ => false

theorem Expr.isBinding_relocate (move : Relocation) (expr : Expr) :
    (expr.relocate move).isBinding = expr.isBinding := by
  cases expr with
  | binding _ _ type => cases type <;> rfl
  | block _ last => cases last <;> rfl
  | variant _ _ given => cases given <;> rfl
  | _ => rfl

/-- An expression begins with the word `let` exactly if it is a `let`. -/
theorem Derives.head_let {tokens : Tokens} {tree : Spanned Expr} {height : Nat}
    (derived : Derives .expr tokens tree height) :
    tokens.head?.map Spanned.node = some (.keyword .let_) ↔ tree.node.isBinding := by
  cases derived with
  | binding => exact ⟨fun _ => rfl, fun _ => rfl⟩
  | operators ladder =>
    have other : (tokens ++ []).head?.map Spanned.node ≠ some (.keyword .let_) :=
      ladder.opened.head rfl
    rw [List.append_nil] at other
    have tight : min 1 unaryPower ≤ tree.node.power := ladder.binds
    refine ⟨fun here => absurd here other, fun bound => ?_⟩
    obtain ⟨expr, span⟩ := tree
    cases expr with
    | binding => exact absurd tight (show ¬ 1 ≤ 0 by decide)
    | _ => cases bound
  | conditional | matching | whileLoop | forLoop | block => exact ⟨nofun, nofun⟩

/-- An expression without the word `let` before it is no binding. -/
theorem Derives.not_isBinding {tokens : Tokens} {tree : Spanned Expr} {height : Nat}
    (derived : Derives .subexpr tokens tree height)
    (unbound : tokens.head?.map Spanned.node ≠ some (.keyword .let_)) :
    ¬ tree.node.isBinding = .true := by
  obtain ⟨_, derived⟩ : ∃ depth, Derives .expr tokens tree depth := by
    cases derived with | nested derived => exact ⟨_, derived⟩
  exact fun binding => unbound (derived.head_let.mpr binding)

/-- An expression that is no `let` is printed as one that is none. -/
theorem Derives.unbound_printed {places : Tokens} {tree : Spanned Expr} {height depth : Nat}
    (derived : Derives .subexpr places tree height)
    (unbound : places.head?.map Spanned.node ≠ some (.keyword .let_)) {printed : Tokens}
    (again : Derives .subexpr printed (erase tree) depth) :
    printed.head?.map Spanned.node ≠ some (.keyword .let_) := by
  obtain ⟨_, derived⟩ : ∃ depth, Derives .expr places tree depth := by
    cases derived with | nested derived => exact ⟨_, derived⟩
  obtain ⟨_, again⟩ : ∃ depth, Derives .expr printed (erase tree) depth := by
    cases again with | nested again => exact ⟨_, again⟩
  rw [Ne, derived.head_let] at unbound
  rw [Ne, again.head_let]
  rwa [show (erase tree).node.isBinding = tree.node.isBinding from tree.node.isBinding_relocate _]

/-- The members of a list are derived again from the printed list. -/
theorem reprint_exprs {parts : List (Part (Spanned Expr))}
    (each : ∀ part ∈ parts, Phrase.subexpr.Reprinted part.value) :
    ∃ made : List (Part (Spanned Expr)),
      Commas (made.map Part.tokens)
        (bare (tokens (commas ((parts.map Part.value).map fun expr => expr.node.pieces)))) ∧
      made.map Part.value = relocateExprs .erasure (parts.map Part.value) ∧
      highest (made.map Part.height) = gaugedExprs .levels (parts.map Part.value) ∧
      ∀ part ∈ made, Derives .subexpr part.tokens part.value part.height := by
  rw [relocateExprs_eq, gaugedExprs_eq]
  exact reprint_parts (List.forall_mem_map.mpr each)

open ContractSyntax.Expr in
/-- The tree of a phrase is derived again from its printed tokens. -/
theorem Derives.reprinted {phrase : Phrase} {places : Tokens} {tree : phrase.Tree} {height : Nat}
    (derived : Derives phrase places tree height) : phrase.Reprinted tree := by
  induction derived with
  -- operands
  | int read =>
    obtain ⟨printed, same, read⟩ := pieces_int read
    exact .of (.int read nowhere) (by simp [Expr.pieces, same]) rfl rfl
  | float read =>
    obtain ⟨printed, same, read⟩ := pieces_float read
    exact .of (.float read nowhere) (by simp [Expr.pieces, same]) rfl rfl
  | string content => exact .of (.string content nowhere) rfl rfl rfl
  | true => exact .of (.true nowhere) rfl rfl rfl
  | false => exact .of (.false nowhere) rfl rfl rfl
  | ret => exact .of (.ret nowhere) rfl rfl rfl
  | it => exact .of (.it nowhere) rfl rfl rfl
  | unit => exact .of (.unit nowhere nowhere) rfl rfl rfl
  | paren _ _ _ inner =>
    exact .of (.paren nowhere nowhere inner) (by simp [pieces_paren]) rfl rfl
  | array _ _ parts _ _ each =>
    obtain ⟨made, row, same, measured, derived⟩ := reprint_exprs each
    refine .of (.array nowhere nowhere made row derived) (by simp [pieces_array]) ?_ measured
    exact congrArg (fun values => (⟨.array values, nowhere⟩ : Spanned Expr))
      same
  | construct _ _ _ struct parts _ _ each =>
    obtain ⟨made, row, same, measured, derived⟩ := reprint_parts (List.forall_mem_map.mpr each)
    refine .of (.construct nowhere nowhere nowhere (erase struct) made row derived)
      (by simp [pieces_construct]) ?_ (measured.trans (gaugedFields_eq _).symm)
    exact congrArg (fun values => (⟨.construct (erase struct) values, nowhere⟩ : Spanned Expr))
      (same.trans (relocateFields_eq _ _).symm)
  | var name => exact .of (.var (erase name)) rfl rfl rfl
  | call function _ _ parts _ _ each =>
    obtain ⟨made, row, same, measured, derived⟩ := reprint_exprs each
    refine .of (.call (erase function) nowhere nowhere made row derived) (by simp [pieces_call]) ?_
      measured
    exact congrArg (fun values => (⟨.call (erase function) values, nowhere⟩ : Spanned Expr)) same
  | variant enumeration chosen =>
    exact .of (.variant (erase enumeration) (erase chosen) nowhere) rfl rfl rfl
  | variantOf enumeration chosen _ _ _ parts _ _ each =>
    obtain ⟨made, row, same, measured, derived⟩ := reprint_exprs each
    refine .of (.variantOf (erase enumeration) (erase chosen) nowhere nowhere nowhere made row
      derived) (by simp [pieces_variantOf, variantPieces]) ?_ measured
    exact congrArg (fun values =>
      (⟨.variant (erase enumeration) (erase chosen) (some values), nowhere⟩ : Spanned Expr)) same
  | field name _ _ value =>
    exact .of (.field (erase name) nowhere value) (by simp [FieldValue.pieces_mk]) rfl rfl
  -- suffixes
  | operand _ operand =>
    exact .of (.operand operand) rfl rfl rfl
  | state moment _ _ derived receiver =>
    exact .of (.state moment nowhere nowhere receiver)
      (by simp [pieces_state, derived.unparenthesized_receiver]) rfl rfl
  | member name _ derived receiver =>
    exact .of (.member (erase name) nowhere receiver)
      (by simp [pieces_field, derived.unparenthesized_receiver]) rfl rfl
  | methodCall method _ _ _ derived parts _ _ receiver each =>
    obtain ⟨made, row, same, measured, given⟩ := reprint_exprs each
    refine .of (.methodCall (erase method) nowhere nowhere nowhere receiver made row given)
      (by simp [pieces_methodCall, derived.unparenthesized_receiver]) ?_ (congrArg _ measured)
    exact congrArg (fun values =>
      (⟨.methodCall (erase _) (erase method) values, nowhere⟩ : Spanned Expr)) same
  | index _ _ derived _ receiver position =>
    exact .of (.index nowhere nowhere receiver position)
      (by simp [pieces_index, derived.unparenthesized_receiver]) rfl rfl
  -- operators
  | unsigned _ operand =>
    exact .of (.unsigned operand) rfl rfl rfl
  | least => exact .of (.least nowhere nowhere) (by rw [Expr.pieces, pieces_least]; rfl) rfl rfl
  | unary operator _ _ _ derived operand =>
    exact .of (operand.unary_bare operator)
      (by simp [pieces_unary, derived.unparenthesized_operand, UnaryOperator.tokens]) rfl rfl
  | single power _ operand =>
    exact .of (.single power operand) rfl rfl rfl
  | binary operator tight _ first second left right =>
    exact .of (.binary operator tight nowhere left right)
      (by simp [pieces_binary, first.unparenthesized_left, second.unparenthesized_right,
        BinaryOperator.piece]) rfl rfl
  -- constructs
  | nested _ inner =>
    exact .of (.nested inner) rfl rfl rfl
  | operators _ inner =>
    exact .of (.operators inner) rfl rfl rfl
  | conditional _ _ _ _ _ _ condition yes no =>
    exact .of (.conditional nowhere nowhere nowhere condition yes no)
      (by simp [pieces_conditional]) rfl rfl
  | @binding _ _ _ isMutable name _ _ _ _ type _ _ _ _ _ _ _ _ _ stated value body =>
    refine .of (.binding nowhere nowhere nowhere isMutable (erase name) reprint_mark stated value
      body) ?_ (by cases type <;> rfl) (gauged_binding _ _ _ _ _).symm
    cases isMutable <;> simp [pieces_binding]
  | matching _ _ _ _ parts _ _ subject each =>
    obtain ⟨made, row, same, measured, derived⟩ := reprint_parts (List.forall_mem_map.mpr each)
    refine .of (.matching nowhere nowhere nowhere subject made row derived)
      (by simp [pieces_matching]) ?_ (congrArg _ (measured.trans (gaugedArms_eq _).symm))
    exact congrArg (fun values => (⟨.matching (erase _) values, nowhere⟩ : Spanned Expr))
      (same.trans (relocateArms_eq _ _).symm)
  | arm _ pattern _ body =>
    exact .of (.arm nowhere pattern.reprinted body) (by simp [MatchArm.pieces_mk]) rfl rfl
  | whileLoop _ _ _ _ _ condition body =>
    exact .of (.whileLoop nowhere nowhere nowhere condition body)
      (by simp [pieces_whileLoop, commas, separated]) rfl rfl
  | forLoop _ _ _ _ name _ _ range body =>
    exact .of (.forLoop nowhere nowhere nowhere nowhere (erase name) range body)
      (by simp [pieces_forLoop, commas, separated]) rfl rfl
  | @block _ _ _ statements last _ _ items =>
    refine .of (.block nowhere nowhere items) (by simp [Expr.tokens_block]) ?_
      (gauged_block 0 statements last).symm
    exact congrArg (fun expr => (⟨expr, nowhere⟩ : Spanned Expr))
      (Level.Moves.relocate_block statements last)
  -- blocks
  | nothing => exact .of (.nothing 0) rfl rfl rfl
  | value _ unbound derived expr =>
    exact .of (.value 0 (derived.unbound_printed unbound expr) expr)
      (by simp [itemsPieces, statementPieces]) rfl rfl
  | bound _ expr =>
    exact .of (.bound expr) (by simp [itemsPieces, statementPieces]) rfl rfl
  | @statement _ _ _ _ _ _ last _ _ unbound derived _ expr others =>
    refine .of (.statement nowhere (derived.unbound_printed unbound expr) expr others) ?_ rfl
      (Nat.max_assoc _ _ _).symm
    cases last <;> simp [itemsPieces, statementPieces_cons]
  | @assign target _ _ _ _ _ _ _ last _ _ _ _ value others =>
    refine .of (.assign (erase target) nowhere nowhere value others) ?_ rfl
      (Nat.max_assoc _ _ _).symm
    cases last <;> simp [itemsPieces, statementPieces_cons, pieces_assign]
  | @bindingRest _ _ _ isMutable name _ _ _ _ _ type _ _ _ _ _ _ _ _ _ stated value body =>
    refine .of (.bindingRest nowhere nowhere nowhere isMutable (erase name) reprint_mark stated value
      body) ?_ (by cases type <;> rfl) (gauged_binding _ _ _ _ _).symm
    cases isMutable <;> simp [pieces_binding]
  | lone _ _ items =>
    exact .of (.lone 0 items) (by simp [itemsPieces, statementPieces]) rfl rfl
  | @remainder _ _ _ statements last _ _ _ items =>
    refine .of (.lone 0 (.value 0 ?_ (.nested (.block nowhere nowhere items))))
      (by simp [Expr.tokens_block]) ?_ (congrArg (· + 1) (gauged_block 0 statements last).symm)
    · simp [bare]
    · exact congrArg (fun expr => (⟨expr, nowhere⟩ : Spanned Expr))
        (Level.Moves.relocate_block statements last)
  -- types
  | nestedType _ inner =>
    exact .of (.nestedType inner) rfl rfl rfl
  | unstated => exact .of .unstated rfl rfl rfl
  | stated _ _ type =>
    exact .of (.stated nowhere type) (by simp [statedPieces]) rfl rfl
  | primitive base => exact .of (.primitive base nowhere) rfl rfl rfl
  | unitType => exact .of (.unitType nowhere nowhere) rfl rfl rfl
  | named name => exact .of (.named (erase name)) rfl rfl rfl
  | reference _ isMutable _ _ target =>
    refine .of (.reference nowhere isMutable reprint_mark target) ?_ ?_ ?_
    · cases isMutable <;> simp [Ty.pieces]
    · cases isMutable <;> rfl
    · cases isMutable <;> rfl
  | @arrayType _ _ _ _ _ length _ _ element _ _ derived =>
    refine .of (.arrayType nowhere nowhere nowhere nowhere (readUInt64?_toString length) derived) ?_
      rfl rfl
    simp [Ty.pieces, Piece.int, Int.not_lt.mpr (Int.natCast_nonneg _)]
  | refined base refinable _ _ _ parts _ _ each =>
    obtain ⟨made, row, same, measured, derived⟩ := reprint_exprs each
    refine .of (.refined base refinable nowhere nowhere nowhere made row derived)
      (by simp [Ty.pieces_refined]) ?_ measured
    exact congrArg (fun values => (⟨.refined base values, nowhere⟩ : Spanned Ty))
      same

end ContractSyntax
