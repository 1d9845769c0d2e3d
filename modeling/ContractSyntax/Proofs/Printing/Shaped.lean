/-
**Trees in shape are derived from their printed tokens.**

A tree that was not read is in shape if it could have been: its names and numbers can be written, and
its operands bind as tightly as their places demand. Its printed tokens then make it up, whether it
was read or not. The induction is on the tree. An expression stands in a text as tightly as it binds:
at every tier up to its power, and below a sign operator or a suffix if it binds as tightly as these.

* `Pattern.Shaped.derives`, `Ty.Shaped.derives`: for patterns and types;
* `Expr.Shaped.plays`: for expressions, by the role that they have where they stand.
-/

import ContractSyntax.Proofs.Printing.Program
import ContractSyntax.Proofs.Shape.Tree

namespace ContractSyntax

open Piece

/-! ### Literals and patterns -/

/-- A number that is not negative is printed as its digits. -/
theorem pieces_int_of_nonneg {value : Int64} (positive : 0 ≤ value) :
    ∃ digits, Piece.int value.toInt = [token (.int digits)] ∧ readInt64? digits = some value := by
  have nonneg : 0 ≤ value.toInt := by simpa using Int64.le_iff_toInt_le.mp positive
  have small : value.toInt.toNat < int64Bound := by
    have below := value.toInt_lt
    simp only [int64Bound]
    omega
  have same : Int64.ofNat value.toInt.toNat = value := by
    refine Int64.toInt.inj ?_
    rw [toInt_ofNat small, Int.toNat_of_nonneg nonneg]
  exact pieces_int ((readInt64?_toString small).trans (congrArg some same))

/-- A number that is finite and has no sign is printed as its digits. -/
theorem pieces_float_of_isLiteral {value : Binary64} (literal : value.IsLiteral) :
    ∃ digits, Piece.float value = [token (.float digits)] ∧ readBinary64? digits = some value := by
  refine ⟨value.sourceDigits, ?_, readBinary64?_sourceDigits literal.1 literal.2⟩
  simp [Piece.float, literal.2]

/-- A pattern in shape is derived from its printed tokens. -/
theorem Pattern.Shaped.derives {pattern : Pattern} (shaped : pattern.Shaped) :
    Pattern.Derives (bare (tokens pattern.pieces)) ⟨erase pattern, nowhere⟩ := by
  cases pattern with
  | wildcard => exact .wildcard nowhere
  | bind name => exact .bind ⟨name, nowhere⟩
  | literal value =>
    cases value with
    | int value =>
      obtain ⟨digits, same, read⟩ := pieces_int_of_nonneg shaped
      exact (Pattern.Derives.int read nowhere).congr
        (by simp [Pattern.pieces, PatternLiteral.pieces, same]) rfl
    | float value =>
      obtain ⟨digits, same, read⟩ := pieces_float_of_isLiteral shaped
      exact (Pattern.Derives.float read nowhere).congr
        (by simp [Pattern.pieces, PatternLiteral.pieces, same]) rfl
    | string content => exact .string content nowhere
    | bool value =>
      cases value with
      | false => exact .false nowhere
      | true => exact .true nowhere
  | variant enumeration chosen bindings =>
    cases bindings with
    | none => exact .variant (erase enumeration) (erase chosen) nowhere
    | some bindings =>
      exact (Pattern.Derives.variantOf (erase enumeration) (erase chosen) nowhere nowhere nowhere
        (reprint_names bindings)).congr (by simp [Pattern.pieces, variantPieces]) rfl

/-! ### How an expression stands -/

/-- An expression without its spans. -/
abbrev Expr.placeless (expr : Expr) : Spanned Expr := ⟨erase expr, nowhere⟩

/-- Whether the printed tokens of an expression make it up wherever it binds tightly enough. -/
structure Expr.Stands (expr : Expr) : Prop where
  whole : Rederived .expr expr.pieces expr.placeless (expr.gauged .levels)
  tier : ∀ power, 1 ≤ power → power ≤ expr.power →
    Rederived (.tier power) expr.pieces expr.placeless (expr.gauged .levels)
  signed : unaryPower ≤ expr.power →
    Rederived .signed expr.pieces expr.placeless (expr.gauged .levels)
  suffixed : operandPower ≤ expr.power →
    Rederived .suffixed expr.pieces expr.placeless (expr.gauged .levels)
  bound : expr.isBinding = true →
    Rederived (.binding 0) expr.pieces expr.placeless (expr.gauged .levels)

/-- A binding binds no operand. -/
theorem Expr.power_of_isBinding {expr : Expr} (bound : expr.isBinding = true) : expr.power = 0 := by
  cases expr with
  | binding => rfl
  | _ => cases bound

namespace Expr.Stands

variable {expr : Expr}

/-- An infix operator stands at every tier up to its own. -/
theorem of_tier {operator : BinaryOperator} (power : expr.power = operator.power)
    (derived : ∀ power ≤ operator.power,
      Rederived (.tier power) expr.pieces expr.placeless (expr.gauged .levels)) : expr.Stands where
  whole := .operators (derived 1 operator.one_le_power)
  tier := fun _ _ tight => derived _ (power ▸ tight)
  signed := fun tight => absurd (Nat.le_trans (power ▸ tight) operator.power_le) (by decide)
  suffixed := fun tight => absurd (Nat.le_trans (power ▸ tight) operator.power_le) (by decide)
  bound := fun bound =>
    absurd operator.one_le_power (by rw [← power, power_of_isBinding bound]; decide)

theorem of_signed (power : expr.power = unaryPower)
    (derived : Rederived .signed expr.pieces expr.placeless (expr.gauged .levels)) :
    expr.Stands where
  whole := .operators (.single 1 derived)
  tier := fun tight _ _ => .single tight derived
  signed := fun _ => derived
  suffixed := fun tight => absurd (power ▸ tight) (by decide)
  bound := fun bound => absurd (power.symm.trans (power_of_isBinding bound)) (by decide)

theorem of_suffixed (power : expr.power = operandPower)
    (derived : Rederived .suffixed expr.pieces expr.placeless (expr.gauged .levels)) :
    expr.Stands where
  whole := .operators (.single 1 (.unsigned derived))
  tier := fun tight _ _ => .single tight (.unsigned derived)
  signed := fun _ => .unsigned derived
  suffixed := fun _ => derived
  bound := fun bound => absurd (power.symm.trans (power_of_isBinding bound)) (by decide)

theorem of_primary (power : expr.power = operandPower)
    (derived : Rederived .primary expr.pieces expr.placeless (expr.gauged .levels)) : expr.Stands :=
  of_suffixed power (.operand derived)

/-- A construct stands only where any expression does. -/
theorem of_construct (power : expr.power = 0)
    (derived : Rederived .expr expr.pieces expr.placeless (expr.gauged .levels))
    (bound : expr.isBinding = true →
      Rederived (.binding 0) expr.pieces expr.placeless (expr.gauged .levels)) : expr.Stands where
  whole := derived
  tier := fun _ positive tight =>
    absurd (Nat.le_trans positive (power ▸ tight)) (by decide)
  signed := fun tight => absurd (power ▸ tight) (by decide)
  suffixed := fun tight => absurd (power ▸ tight) (by decide)
  bound := bound

theorem subexpr (stands : expr.Stands) :
    Rederived .subexpr expr.pieces expr.placeless (expr.gauged .levels + 1) :=
  .nested stands.whole

/-- An expression that is no binding does not begin with the word for one. -/
theorem unbound (stands : expr.Stands) (other : expr.isBinding = false) :
    (bare (tokens expr.pieces)).head?.map Spanned.node ≠ some (.keyword .let_) := by
  have bound : (erase expr).isBinding = expr.isBinding := expr.isBinding_relocate _
  rw [Ne, Derives.head_let stands.whole]
  show ¬ (erase expr).isBinding = true
  rw [bound, other]
  exact Bool.false_ne_true

/-- Any expression is the value of a block. -/
theorem last (stands : expr.Stands) :
    Rederived (.items 0) expr.pieces ([], some expr.placeless) (expr.gauged .levels + 1) := by
  cases other : expr.isBinding with
  | true => exact .bound (stands.bound other)
  | false => exact .value 0 (stands.unbound other) stands.subexpr

/-- A binding stands also in a block, where the rest of the block is its body. -/
theorem of_binding (isMutable : Bool) (name : Name) {type : Option (Spanned Ty)}
    {value body : Spanned Expr}
    (typed : Rederived .stated (statedPieces type) (erase type) (Phrase.stated.gauged .levels type))
    (given : value.node.Stands) (rest : body.node.Stands) :
    (Expr.binding isMutable name type value body).Stands := by
  have tokens_eq : ∀ mark, mark = bare (if isMutable then [.keyword .mut_] else []) →
      (⟨.keyword .let_, nowhere⟩ :: (mark ++ (erase name).ident ::
        (bare (tokens (statedPieces type)) ++ ⟨.symbol .equal, nowhere⟩ ::
        (bare (tokens value.node.pieces) ++ ⟨.symbol .semicolon, nowhere⟩ ::
        bare (tokens body.node.pieces)))) : Tokens) =
        bare (tokens (Expr.binding isMutable name type value body).pieces) := by
    rintro _ rfl
    cases isMutable <;> simp [pieces_binding]
  have same : (⟨.binding isMutable (erase name) (erase type) value.node.placeless
      body.node.placeless, nowhere⟩ : Spanned Expr) =
      (Expr.binding isMutable name type value body).placeless := by
    cases type <;> rfl
  refine .of_construct rfl ?_ fun _ => ?_
  · exact .of (.binding nowhere nowhere nowhere isMutable (erase name) reprint_mark typed
      given.subexpr rest.subexpr) (tokens_eq _ rfl) same (gauged_binding _ _ _ _ _).symm
  · exact .of (.bindingRest nowhere nowhere nowhere isMutable (erase name) reprint_mark typed
      given.subexpr (.lone 0 rest.last)) (tokens_eq _ rfl) same (gauged_binding _ _ _ _ _).symm

/-- A block of statements and a value. -/
theorem of_block {statements : List (Spanned Expr)} {last : Option (Spanned Expr)}
    (items : Rederived (.items 0) (itemsPieces statements last) (erase (statements, last))
      ((Phrase.items 0).gauged .levels (statements, last))) : (Expr.block statements last).Stands := by
  refine .of_construct rfl ?_ nofun
  refine .of (.block nowhere nowhere items) (by simp [Expr.tokens_block]) ?_
    (gauged_block 0 statements last).symm
  exact congrArg (fun expr => (⟨expr, nowhere⟩ : Spanned Expr))
    (Level.Moves.relocate_block statements last)

end Expr.Stands

/-! ### Lists and statements -/

/-- The expressions of a list, each one level deeper. -/
theorem derives_exprs {exprs : List (Spanned Expr)} (each : ∀ expr ∈ exprs, expr.node.Stands) :
    ∃ made : List (Part (Spanned Expr)),
      Commas (made.map Part.tokens)
        (bare (tokens (commas (exprs.map fun expr => expr.node.pieces)))) ∧
      made.map Part.value = relocateExprs .erasure exprs ∧
      highest (made.map Part.height) = gaugedExprs .levels exprs ∧
      ∀ part ∈ made, Derives .subexpr part.tokens part.value part.height := by
  rw [relocateExprs_eq, gaugedExprs_eq]
  exact reprint_parts fun expr member => (each expr member).subexpr

/-- How an expression stands in a role: a statement that assigns is no expression by itself. -/
inductive Expr.Plays : Role → Expr → Prop
  | stands {role : Role} {expr : Expr} (stands : expr.Stands)
      (plain : role = .statement → expr.isBinding = false) : Plays role expr
  | assign (name : Name) {value : Spanned Expr} (stands : value.node.Stands) :
      Plays .statement (.assign name value)

theorem Expr.Plays.value {expr : Expr} (plays : expr.Plays .value) : expr.Stands := by
  cases plays with
  | stands stands => exact stands

/-- The statements of a block and its value. -/
theorem derives_items {statements : List (Spanned Expr)} {last : Option (Spanned Expr)}
    (each : ∀ statement ∈ statements, statement.node.Plays .statement)
    (final : ∀ expr ∈ last, expr.node.Stands) :
    Rederived (.items 0) (itemsPieces statements last) (erase (statements, last))
      ((Phrase.items 0).gauged .levels (statements, last)) := by
  induction statements with
  | nil =>
    cases last with
    | none => exact .of (.nothing 0) rfl rfl rfl
    | some last =>
      exact .of (final last rfl).last (by simp [itemsPieces, statementPieces]) rfl
        (by simp [Phrase.gauged, gaugedAll, exprGauged])
  | cons statement others continued =>
    have rest := continued fun other member => each other (List.mem_cons_of_mem _ member)
    have first := each statement List.mem_cons_self
    obtain ⟨expr, span⟩ := statement
    cases first with
    | stands stands plain =>
      refine .of (.statement nowhere (stands.unbound (plain rfl)) stands.subexpr rest) ?_ rfl
        (Nat.max_assoc _ _ _).symm
      cases last <;> simp [itemsPieces, statementPieces_cons]
    | assign name stands =>
      refine .of (.assign (erase name) nowhere nowhere stands.subexpr rest) ?_ rfl
        (Nat.max_assoc _ _ _).symm
      cases last <;> simp [itemsPieces, statementPieces_cons, Expr.pieces_assign]

/-! ### Expressions and types -/

theorem Demand.bare.operand {power : Nat} {expr : Expr} (bare : Demand.bare power expr) :
    decide (expr.power < power) = false :=
  decide_eq_false (Nat.not_lt.mpr bare.2)

theorem Demand.bare.right {operator : BinaryOperator} {expr : Expr}
    (bare : Demand.bare (operator.power + 1) expr) :
    decide (expr.power ≤ operator.power) = false :=
  decide_eq_false (Nat.not_le.mpr bare.2)

open ContractSyntax.Expr in
mutual

/-- An expression in shape stands as tightly as it binds. -/
theorem Expr.Shaped.plays {role : Role} : {expr : Expr} → expr.Shaped .bare role → expr.Plays role
  | .int value, shaped => by
    refine .stands ?_ fun _ => rfl
    rcases shaped with positive | rfl
    · obtain ⟨digits, same, read⟩ := pieces_int_of_nonneg positive
      exact .of_primary (by simp [power, Int64.not_lt.mpr positive])
        (.of (.int read nowhere) (by simp [Expr.pieces, same]) rfl rfl)
    · exact .of_signed rfl
        (.of (.least nowhere nowhere) (by rw [Expr.pieces, pieces_least]; rfl) rfl rfl)
  | .float value, shaped => by
    obtain ⟨digits, same, read⟩ := pieces_float_of_isLiteral shaped
    exact .stands (.of_primary rfl
      (.of (.float read nowhere) (by simp [Expr.pieces, same]) rfl rfl)) fun _ => rfl
  | .string content, _ => .stands (.of_primary rfl (.string content nowhere)) fun _ => rfl
  | .bool false, _ => .stands (.of_primary rfl (.false nowhere)) fun _ => rfl
  | .bool true, _ => .stands (.of_primary rfl (.true nowhere)) fun _ => rfl
  | .unit, _ => .stands (.of_primary rfl (.unit nowhere nowhere)) fun _ => rfl
  | .var name, _ => .stands (.of_primary rfl (.var ⟨name, nowhere⟩)) fun _ => rfl
  | .ret, _ => .stands (.of_primary rfl (.ret nowhere)) fun _ => rfl
  | .it, _ => .stands (.of_primary rfl (.it nowhere)) fun _ => rfl
  | .binary ⟨left, _⟩ operator ⟨right, _⟩, ⟨loose, tight, first, second⟩ => by
    have first := first.plays.value.tier _ operator.one_le_power loose.2
    have second := second.plays.value.tier _ (Nat.succ_pos _) tight.2
    refine .stands (.of_tier rfl fun power within => ?_) fun _ => rfl
    exact .of (.binary operator within nowhere first second)
      (by simp [pieces_binary, loose.operand, tight.right, BinaryOperator.piece]) rfl rfl
  | .unary operator ⟨operand, _⟩, ⟨tight, inner⟩ => by
    have inner := inner.plays.value.signed tight.2
    exact .stands (.of_signed rfl (.of (inner.unary_bare operator)
      (by simp [pieces_unary, tight.operand, UnaryOperator.tokens]) rfl rfl)) fun _ => rfl
  | .conditional ⟨condition, _⟩ ⟨yes, _⟩ ⟨no, _⟩, ⟨first, second, third⟩ => by
    refine .stands (.of_construct rfl ?_ nofun) fun _ => rfl
    exact .of (.conditional nowhere nowhere nowhere first.plays.value.subexpr
      second.plays.value.subexpr third.plays.value.subexpr) (by simp [pieces_conditional]) rfl rfl
  | .binding isMutable name none ⟨value, _⟩ ⟨body, _⟩, ⟨isValue, _, given, rest⟩ =>
    .stands (.of_binding isMutable name .unstated given.plays.value rest.plays.value)
      fun isStatement => by cases isValue.symm.trans isStatement
  | .binding isMutable name (some ⟨type, span⟩) ⟨value, _⟩ ⟨body, _⟩,
      ⟨isValue, _, typed, given, rest⟩ => by
    have stated : Rederived .stated (statedPieces (some ⟨type, span⟩)) (some ⟨erase type, nowhere⟩)
        (Phrase.stated.gauged .levels (some ⟨type, span⟩)) :=
      .of (.stated nowhere (.nestedType typed.derives)) (by simp [statedPieces]) rfl
        (Nat.max_zero _).symm
    exact .stands (.of_binding isMutable name stated given.plays.value rest.plays.value)
      fun isStatement => by cases isValue.symm.trans isStatement
  | .matching ⟨subject, _⟩ arms, ⟨first, each⟩ => by
    obtain ⟨made, row, same, measured, derived⟩ := reprint_parts (armsShaped_derives each)
    refine .stands (.of_construct rfl ?_ nofun) fun _ => rfl
    refine .of (.matching nowhere nowhere nowhere first.plays.value.subexpr made row derived)
      (by simp [pieces_matching]) ?_ (congrArg _ (measured.trans (gaugedArms_eq _).symm))
    exact congrArg (fun values => (⟨.matching subject.placeless values, nowhere⟩ : Spanned Expr))
      (same.trans (relocateArms_eq _ _).symm)
  | .whileLoop ⟨condition, _⟩ ⟨body, _⟩, ⟨first, second⟩ => by
    refine .stands (.of_construct rfl ?_ nofun) fun _ => rfl
    exact .of (.whileLoop nowhere nowhere nowhere first.plays.value.subexpr
      second.plays.value.subexpr) (by simp [pieces_whileLoop, commas, separated]) rfl rfl
  | .forLoop name ⟨range, _⟩ ⟨body, _⟩, ⟨_, first, second⟩ => by
    refine .stands (.of_construct rfl ?_ nofun) fun _ => rfl
    exact .of (.forLoop nowhere nowhere nowhere nowhere (erase name) first.plays.value.subexpr
      second.plays.value.subexpr) (by simp [pieces_forLoop, commas, separated]) rfl rfl
  | .block statements none, shaped => by
    have items := derives_items (exprsShaped_plays statements shaped) fun expr member =>
      absurd member (Option.not_mem_none expr)
    exact .stands (.of_block items) fun _ => rfl
  | .block statements (some ⟨last, span⟩), ⟨shaped, final⟩ => by
    have final : ∀ expr ∈ some (⟨last, span⟩ : Spanned Expr), expr.node.Stands := by
      rintro _ ⟨⟩
      exact final.plays.value
    exact .stands (.of_block (derives_items (exprsShaped_plays statements shaped) final))
      fun _ => rfl
  | .assign name ⟨value, span⟩, ⟨isStatement, _, given⟩ => by
    subst isStatement
    have stands : (⟨value, span⟩ : Spanned Expr).node.Stands := given.plays.value
    exact .assign name stands
  | .methodCall ⟨receiver, _⟩ method given, ⟨tight, inner, _, each⟩ => by
    have inner := inner.plays.value.suffixed tight.2
    obtain ⟨made, row, same, measured, derived⟩ :=
      derives_exprs fun expr member => (exprsShaped_plays given each expr member).value
    refine .stands (.of_suffixed rfl ?_) fun _ => rfl
    refine .of (.methodCall (erase method) nowhere nowhere nowhere inner made row derived)
      (by simp [pieces_methodCall, tight.operand]) ?_ (congrArg _ measured)
    exact congrArg (fun values =>
      (⟨.methodCall receiver.placeless (erase method) values, nowhere⟩ : Spanned Expr)) same
  | .field ⟨receiver, _⟩ name, ⟨tight, inner, _⟩ => by
    have inner := inner.plays.value.suffixed tight.2
    exact .stands (.of_suffixed rfl (.of (.member (erase name) nowhere inner)
      (by simp [pieces_field, tight.operand]) rfl rfl)) fun _ => rfl
  | .index ⟨receiver, _⟩ ⟨position, _⟩, ⟨tight, inner, place⟩ => by
    have inner := inner.plays.value.suffixed tight.2
    exact .stands (.of_suffixed rfl (.of (.index nowhere nowhere inner place.plays.value.subexpr)
      (by simp [pieces_index, tight.operand]) rfl rfl)) fun _ => rfl
  | .state ⟨receiver, _⟩ moment, ⟨tight, inner⟩ => by
    have inner := inner.plays.value.suffixed tight.2
    exact .stands (.of_suffixed rfl (.of (.state moment nowhere nowhere inner)
      (by simp [pieces_state, tight.operand]) rfl rfl)) fun _ => rfl
  | .call function given, ⟨_, each⟩ => by
    obtain ⟨made, row, same, measured, derived⟩ :=
      derives_exprs fun expr member => (exprsShaped_plays given each expr member).value
    refine .stands (.of_primary rfl ?_) fun _ => rfl
    refine .of (.call (erase function) nowhere nowhere made row derived) (by simp [pieces_call]) ?_
      measured
    exact congrArg (fun values => (⟨.call (erase function) values, nowhere⟩ : Spanned Expr)) same
  | .variant enumeration chosen none, _ =>
    .stands (.of_primary rfl (.variant (erase enumeration) (erase chosen) nowhere)) fun _ => rfl
  | .variant enumeration chosen (some given), ⟨_, _, each⟩ => by
    obtain ⟨made, row, same, measured, derived⟩ :=
      derives_exprs fun expr member => (exprsShaped_plays given each expr member).value
    refine .stands (.of_primary rfl ?_) fun _ => rfl
    refine .of (.variantOf (erase enumeration) (erase chosen) nowhere nowhere nowhere made row
      derived) (by simp [pieces_variantOf, variantPieces]) ?_ measured
    exact congrArg (fun values =>
      (⟨.variant (erase enumeration) (erase chosen) (some values), nowhere⟩ : Spanned Expr)) same
  | .construct struct fields, ⟨_, each⟩ => by
    obtain ⟨made, row, same, measured, derived⟩ := reprint_parts (fieldsShaped_derives each)
    refine .stands (.of_primary rfl ?_) fun _ => rfl
    refine .of (.construct nowhere nowhere nowhere (erase struct) made row derived)
      (by simp [pieces_construct]) ?_ (measured.trans (gaugedFields_eq _).symm)
    exact congrArg (fun values => (⟨.construct (erase struct) values, nowhere⟩ : Spanned Expr))
      (same.trans (relocateFields_eq _ _).symm)
  | .array elements, each => by
    obtain ⟨made, row, same, measured, derived⟩ :=
      derives_exprs fun expr member => (exprsShaped_plays elements each expr member).value
    refine .stands (.of_primary rfl ?_) fun _ => rfl
    refine .of (.array nowhere nowhere made row derived) (by simp [pieces_array]) ?_ measured
    exact congrArg (fun values => (⟨.array values, nowhere⟩ : Spanned Expr)) same
  | .paren ⟨inner, _⟩, shaped => by
    have inner := (show inner.Shaped .bare .value from shaped).plays.value
    exact .stands (.of_primary rfl (.of (.paren nowhere nowhere inner.subexpr)
      (by simp [pieces_paren]) rfl rfl)) fun _ => rfl

/-- A type in shape is derived from its printed tokens. -/
theorem Ty.Shaped.derives : {type : Ty} → type.Shaped .bare →
    Rederived .type type.pieces ⟨erase type, nowhere⟩ (type.gauged .levels)
  | .primitive base, _ => .primitive base nowhere
  | .unit, _ => .unitType nowhere nowhere
  | .named name, _ => .named ⟨name, nowhere⟩
  | .reference target, shaped => by
    have inner := (show target.Shaped .bare from shaped).derives
    have marked : Marks .mut_ false [] := rfl
    exact .of (.reference nowhere false marked (.nestedType inner)) (by simp [Ty.pieces]) rfl rfl
  | .mutableReference target, shaped => by
    have inner := (show target.Shaped .bare from shaped).derives
    have marked : Marks .mut_ true [⟨.keyword .mut_, nowhere⟩] := rfl
    exact .of (.reference nowhere true marked (.nestedType inner)) (by simp [Ty.pieces]) rfl rfl
  | .array element length, shaped => by
    have inner := (show element.Shaped .bare from shaped).derives
    refine .of (.arrayType nowhere nowhere nowhere nowhere (readUInt64?_toString length)
      (.nestedType inner)) ?_ rfl rfl
    simp [Ty.pieces, Piece.int, Int.not_lt.mpr (Int.natCast_nonneg _)]
  | .refined base constraints, ⟨other, each⟩ => by
    obtain ⟨made, row, same, measured, derived⟩ :=
      derives_exprs fun expr member => (exprsShaped_plays constraints each expr member).value
    have refinable : base.isRefinable = true := by cases base <;> first | rfl | exact absurd rfl other
    refine .of (.refined base refinable nowhere nowhere nowhere made row derived)
      (by simp [Ty.pieces_refined]) ?_ measured
    exact congrArg (fun values => (⟨.refined base values, nowhere⟩ : Spanned Ty)) same

theorem exprsShaped_plays {role : Role} : (exprs : List (Spanned Expr)) →
    exprsShaped .bare role exprs → ∀ expr ∈ exprs, expr.node.Plays role
  | [], _ => List.forall_mem_nil _
  | ⟨_, _⟩ :: rest, ⟨first, others⟩ =>
    List.forall_mem_cons.mpr ⟨first.plays, exprsShaped_plays rest others⟩

/-- An alternative in shape is derived from its printed tokens. -/
theorem MatchArm.Shaped.derives : {arm : MatchArm} → arm.Shaped .bare →
    Rederived .arm arm.pieces (erase arm) (arm.gauged .levels)
  | .mk _ ⟨_, _⟩, ⟨pattern, body⟩ =>
    .of (.arm nowhere pattern.derives body.plays.value.subexpr) (by simp [MatchArm.pieces_mk]) rfl
      rfl

theorem armsShaped_derives : {arms : List MatchArm} → armsShaped .bare arms →
    ∀ arm ∈ arms, Rederived .arm arm.pieces (erase arm) (arm.gauged .levels)
  | [], _ => List.forall_mem_nil _
  | _ :: _, ⟨first, others⟩ =>
    List.forall_mem_cons.mpr ⟨first.derives, armsShaped_derives others⟩

/-- A field in shape is derived from its printed tokens. -/
theorem FieldValue.Shaped.derives : {field : FieldValue} → field.Shaped .bare →
    Rederived .field field.pieces (erase field) (field.gauged .levels)
  | .mk name ⟨_, _⟩, ⟨_, value⟩ =>
    .of (.field (erase name) nowhere value.plays.value.subexpr) (by simp [FieldValue.pieces_mk]) rfl
      rfl

theorem fieldsShaped_derives : {fields : List FieldValue} → fieldsShaped .bare fields →
    ∀ field ∈ fields, Rederived .field field.pieces (erase field) (field.gauged .levels)
  | [], _ => List.forall_mem_nil _
  | _ :: _, ⟨first, others⟩ =>
    List.forall_mem_cons.mpr ⟨first.derives, fieldsShaped_derives others⟩

end

end ContractSyntax
