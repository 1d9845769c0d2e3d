/-
**Reading moved tokens gives moved trees.**

Where the tokens stand has no influence on how they are read: the outcome over moved tokens is the
moved outcome, for every parser of the grammar, whether it succeeds or fails.

* `Level.Moves.tower`: for the parsers of all levels.
-/

import ContractSyntax.Proofs.Relocation.Parser

namespace ContractSyntax

open ContractSyntax.Parser

variable {move : Relocation}

/-- The parsers of a level read moved tokens as the moved trees. -/
structure Level.Moves (move : Relocation) (level : Level) : Prop where
  expr : Parser.Moves move level.expr level.expr
  type : Parser.Moves move level.type level.type
  signed : Parser.Moves move level.signed level.signed
  binding : Parser.Moves move level.binding level.binding
  tier (power : Nat) : Parser.Moves move (level.tier power) (level.tier power)

/-- Two moved spans around a node are merged as the spans are. -/
theorem Spanned.relocate_mk {α : Type} [Relocate α] {node node' : α} {first second : Span}
    (same : node' = relocate move node) :
    (⟨node', (first.relocate move).merge (second.relocate move)⟩ : Spanned α) =
      relocate move ⟨node, first.merge second⟩ := by
  subst same
  rw [← Span.relocate_merge]
  rfl

namespace Parser.Moves

theorem literalValue {α β : Type} [Relocate β] {value? : Option α} {cause : Cause}
    {next' next : α → Parser β} (continued : ∀ value, Moves move (next' value) (next value)) :
    Moves move (Parser.literalValue value? cause >>= next')
      (Parser.literalValue value? cause >>= next) := by
  intro room cursor
  cases value? with
  | none =>
    simp only [Parser.literalValue, run_bind, Parser.fail, failAt, Cursor.error_relocate]
    rfl
  | some value =>
    simp only [Parser.literalValue, run_bind, run_pure, continued value room cursor]
    cases (next value).run room cursor <;> rfl

theorem pattern : Moves move Parser.pattern Parser.pattern := by
  refine current fun found => ?_
  split
  · exact literalValue fun value => bind passed fun _ => .pure rfl
  · exact literalValue fun value => bind passed fun _ => .pure rfl
  · exact bind passed fun _ => .pure rfl
  · exact bind passed fun _ => .pure rfl
  · exact bind passed fun _ => .pure rfl
  · exact bind passed fun _ => .pure rfl
  · refine bind passed fun place => bind (accept _) fun found => ?_
    rcases found with _ | colons
    · exact .pure rfl
    · refine bind (name _) fun variant => bind (accept _) fun found => ?_
      rcases found with _ | opened
      · exact .pure (Spanned.relocate_mk rfl)
      · exact bind (list _ (name _)) fun found => .pure (Spanned.relocate_mk rfl)
  · exact .fail _

theorem arrayLength : Moves move ContractSyntax.arrayLength ContractSyntax.arrayLength := by
  refine current fun found => ?_
  split
  · refine bind passed fun place => ?_
    split
    · exact .pure rfl
    · exact .failWith rfl
  · exact .fail _

end Parser.Moves

namespace Level.Moves

variable {deeper : Level}

theorem subexpr (moves : deeper.Moves move) : Parser.Moves move deeper.subexpr deeper.subexpr :=
  .nested moves.expr

theorem subtype (moves : deeper.Moves move) : Parser.Moves move deeper.subtype deeper.subtype :=
  .nested moves.type

theorem exprs (moves : deeper.Moves move) (close : Symbol) :
    Parser.Moves move (deeper.exprs close) (deeper.exprs close) :=
  .list close moves.subexpr

theorem arguments? (moves : deeper.Moves move) :
    Parser.Moves move deeper.arguments? deeper.arguments? := by
  refine .bind (.accept _) fun found => ?_
  rcases found with _ | opened
  · exact .pure rfl
  · exact .bind (moves.exprs _) fun _ => .pure rfl

/-! ### Operands -/

theorem variantRest (moves : deeper.Moves move) (enumeration : Name) :
    Parser.Moves move (deeper.variantRest (relocate move enumeration))
      (deeper.variantRest enumeration) := by
  refine .bind (.name _) fun variant => .bind moves.arguments? fun found => ?_
  rcases found with _ | ⟨given, stop⟩
  · exact .pure (Spanned.relocate_mk rfl)
  · refine .pure (Spanned.relocate_mk ?_)
    show _ = Expr.relocate move _
    rw [Expr.relocate, relocateExprs_eq]

theorem named (moves : deeper.Moves move) (first : Name) :
    Parser.Moves move (deeper.named (relocate move first)) (deeper.named first) := by
  refine .bind moves.arguments? fun found => ?_
  rcases found with _ | ⟨given, stop⟩
  · refine .bind (.accept _) fun found => ?_
    rcases found with _ | colons
    · exact .pure rfl
    · exact moves.variantRest first
  · refine .pure (Spanned.relocate_mk ?_)
    show _ = Expr.relocate move _
    rw [Expr.relocate, relocateExprs_eq]

theorem parenthesis (moves : deeper.Moves move) (start : Span) :
    Parser.Moves move (deeper.parenthesis (start.relocate move)) (deeper.parenthesis start) := by
  refine .bind (.accept _) fun found => ?_
  rcases found with _ | stop
  · exact .bind moves.subexpr fun inner => .bind (.expect _) fun stop =>
      .pure (Spanned.relocate_mk rfl)
  · exact .pure (Spanned.relocate_mk rfl)

theorem fieldValue (moves : deeper.Moves move) :
    Parser.Moves move deeper.fieldValue deeper.fieldValue :=
  .bind (.name _) fun _ => .bind (.expect _) fun _ => .bind moves.subexpr fun _ => .pure rfl

theorem construct (moves : deeper.Moves move) (start : Span) :
    Parser.Moves move (deeper.construct (start.relocate move)) (deeper.construct start) := by
  refine .bind (.name _) fun struct => .bind (.expect _) fun _ => ?_
  refine .bind (.list _ moves.fieldValue) fun found => .pure (Spanned.relocate_mk ?_)
  show _ = Expr.relocate move _
  rw [Expr.relocate, relocateFields_eq]

theorem primary (moves : deeper.Moves move) :
    Parser.Moves move deeper.primary deeper.primary := by
  refine .current fun found => ?_
  split
  · exact .literalValue fun value => .bind .passed fun _ => .pure rfl
  · exact .literalValue fun value => .bind .passed fun _ => .pure rfl
  · exact .bind .passed fun _ => .pure rfl
  · exact .bind .passed fun _ => .pure rfl
  · exact .bind .passed fun _ => .pure rfl
  · exact .bind .passed fun _ => .pure rfl
  · exact .bind .passed fun _ => .pure rfl
  · exact .bind .passed fun start => moves.construct start
  · exact .bind .passed fun start => moves.parenthesis start
  · refine .bind .passed fun start => .bind (moves.exprs _) fun found => ?_
    refine .pure (Spanned.relocate_mk ?_)
    show _ = Expr.relocate move _
    rw [Expr.relocate, relocateExprs_eq]
  · next text => exact .bind .passed fun place => moves.named ⟨text, place⟩
  · exact .fail _

/-! ### Suffixes and operators -/

theorem dotSuffix (moves : deeper.Moves move) (receiver : Spanned Expr) :
    Parser.Moves move (deeper.dotSuffix (relocate move receiver)) (deeper.dotSuffix receiver) := by
  refine .current fun found => ?_
  split
  · exact .bind .passed fun _ => .pure (Spanned.relocate_mk rfl)
  · exact .bind .passed fun _ => .pure (Spanned.relocate_mk rfl)
  · next text =>
    refine .bind .passed fun place => .bind moves.arguments? fun found => ?_
    rcases found with _ | ⟨given, stop⟩
    · exact .pure (Spanned.relocate_mk rfl)
    · refine .pure (Spanned.relocate_mk ?_)
      show _ = Expr.relocate move _
      rw [Expr.relocate, relocateExprs_eq]
      rfl
  · exact .fail _

theorem indexSuffix (moves : deeper.Moves move) (receiver : Spanned Expr) :
    Parser.Moves move (deeper.indexSuffix (relocate move receiver))
      (deeper.indexSuffix receiver) :=
  .bind moves.subexpr fun _ => .bind (.expect _) fun _ => .pure (Spanned.relocate_mk rfl)

theorem suffixes (moves : deeper.Moves move) : Moves.Linked move deeper.suffix? deeper.suffix? := by
  refine ⟨fun _ none => none, fun token link found => ⟨link, found, ?_⟩⟩
  unfold Level.suffix? at found
  split at found
  · cases found
    exact fun receiver => .bind .passed fun _ => moves.dotSuffix receiver
  · cases found
    exact fun receiver => .bind .passed fun _ => moves.indexSuffix receiver
  · cases found

theorem suffixed (moves : deeper.Moves move) :
    Parser.Moves move deeper.suffixed deeper.suffixed :=
  .chain moves.primary moves.suffixes

theorem operand (moves : deeper.Moves move) (operator : UnaryOperator) (start : Span) :
    Parser.Moves move (deeper.operand operator (start.relocate move))
      (deeper.operand operator start) :=
  .bind (.nested moves.signed) fun _ => .pure (Spanned.relocate_mk rfl)

theorem leastDigits? : Parser.Moves move Level.leastDigits? Level.leastDigits? := by
  refine .current fun found => ?_
  split
  · refine .second fun following => ?_
    split
    · exact .pure rfl
    · exact .pure rfl
    · exact .bind .passed fun _ => .pure rfl
  · exact .pure rfl

theorem signedBody (moves : deeper.Moves move) :
    Parser.Moves move deeper.signedBody deeper.signedBody := by
  refine .current fun found => ?_
  split
  · refine .bind .passed fun start => .bind leastDigits? fun found => ?_
    rcases found with _ | stop
    · exact moves.operand _ start
    · exact .pure (Spanned.relocate_mk rfl)
  · exact .bind .passed fun start => moves.operand _ start
  · exact .bind .passed fun start => moves.operand _ start
  · refine .bind .passed fun start => .bind (.accept _) fun found => ?_
    rcases found with _ | marked
    · exact moves.operand _ start
    · exact moves.operand _ start
  · exact moves.suffixed

theorem infixes (moves : deeper.Moves move) (power : Nat) :
    Moves.Linked move (deeper.infixed? power) (deeper.infixed? power) := by
  refine ⟨fun _ none => none, fun token link found => ⟨link, found, fun left => ?_⟩⟩
  unfold Level.infixed? at found
  split at found
  · split at found
    · cases found
      exact .bind .passed fun _ => .bind (moves.tier _) fun _ => .pure (Spanned.relocate_mk rfl)
    · cases found
  · cases found

theorem tierBody (moves : deeper.Moves move) (power : Nat) :
    Parser.Moves move (deeper.tierBody power) (deeper.tierBody power) :=
  .chain moves.signedBody (moves.infixes power)

/-! ### Blocks -/

theorem assignment (moves : deeper.Moves move) (target : Name) :
    Parser.Moves move (deeper.assignment (relocate move target)) (deeper.assignment target) :=
  .bind moves.subexpr fun _ => .pure (Spanned.relocate_mk rfl)

theorem blockExpr (moves : deeper.Moves move) :
    Parser.Moves move deeper.blockExpr deeper.blockExpr := by
  refine .bind moves.subexpr fun expr => .current fun found => ?_
  split
  · exact .pure rfl
  · exact .pure rfl
  · exact .fail _

theorem blockEntry (moves : deeper.Moves move) :
    Parser.Moves move deeper.blockEntry deeper.blockEntry := by
  refine .current fun found => ?_
  split
  · exact .pure rfl
  · exact .pure rfl
  · exact .bind (.nested moves.binding) fun _ => .pure rfl
  · refine .bind (.nameBefore _) fun found => ?_
    rcases found with _ | target
    · exact moves.blockExpr
    · exact .bind (moves.assignment target) fun _ => .pure rfl

theorem blockItems (moves : deeper.Moves move) :
    Parser.Moves move deeper.blockItems deeper.blockItems :=
  .sequence moves.blockEntry

theorem relocate_block (statements : List (Spanned Expr)) (last : Option (Spanned Expr)) :
    Expr.block (relocate move statements) (relocate move last) =
      relocate move (Expr.block statements last) := by
  rw [← relocateExprs_eq]
  cases last <;> rfl

theorem block (moves : deeper.Moves move) (start : Span) :
    Parser.Moves move (deeper.block (start.relocate move)) (deeper.block start) :=
  .bind moves.blockItems fun found => .bind (.expect _) fun _ =>
    .pure (Spanned.relocate_mk (relocate_block found.1 found.2))

/-- The block that the rest of a block becomes, unless it is a value without statements. -/
theorem restBlock (start : Nat) (statements : List (Spanned Expr))
    (last : Option (Spanned Expr)) :
    Parser.Moves move
      (Parser.lastStop >>= fun stop =>
        let start := move.offset start
        pure (⟨.block (relocate move statements) (relocate move last), start, max stop start⟩ :
          Spanned Expr))
      (Parser.lastStop >>= fun stop =>
        pure ⟨.block statements last, start, max stop start⟩) := by
  refine .lastStop fun stop => .pure ?_
  rw [relocate_block]
  show (⟨_, _, max (move.offset stop) (move.offset start)⟩ : Spanned Expr) = _
  rw [← move.offset_max]
  rfl

theorem blockRest (moves : deeper.Moves move) :
    Parser.Moves move deeper.blockRest deeper.blockRest := by
  refine .here fun start => .bind moves.blockItems fun found => ?_
  obtain ⟨statements, last⟩ := found
  rcases statements with _ | ⟨statement, statements⟩
  · cases last with
    | none => exact restBlock start.start [] none
    | some last => exact .pure rfl
  · exact restBlock start.start (statement :: statements) last

/-! ### Constructs -/

theorem statedType? (moves : deeper.Moves move) :
    Parser.Moves move deeper.statedType? deeper.statedType? := by
  refine .bind (.accept _) fun found => ?_
  rcases found with _ | colon
  · exact .pure rfl
  · exact .bind moves.subtype fun _ => .pure rfl

theorem bindingOver (moves : deeper.Moves move) {body : Parser (Spanned Expr)}
    (same : Parser.Moves move body body) :
    Parser.Moves move (deeper.bindingOver body) (deeper.bindingOver body) := by
  refine .bind (.expect _) fun start => .bind (.accept _) fun marked => ?_
  refine .bind (.name _) fun bound => .bind moves.statedType? fun type => ?_
  refine .bind (.expect _) fun _ => .bind moves.subexpr fun value => ?_
  refine .bind (.expect _) fun _ => .bind same fun body => ?_
  have marks : (relocate move marked).isSome = marked.isSome := Option.isSome_map
  rw [marks]
  refine .note rfl (.pure (Spanned.relocate_mk ?_))
  cases type <;> rfl

theorem conditional (moves : deeper.Moves move) (start : Span) :
    Parser.Moves move (deeper.conditional (start.relocate move)) (deeper.conditional start) :=
  .bind moves.subexpr fun _ => .bind (.expect _) fun _ => .bind moves.subexpr fun _ =>
    .bind (.expect _) fun _ => .bind moves.subexpr fun _ => .pure (Spanned.relocate_mk rfl)

theorem matchArm (moves : deeper.Moves move) :
    Parser.Moves move deeper.matchArm deeper.matchArm :=
  .bind .pattern fun _ => .bind (.expect _) fun _ => .bind moves.subexpr fun _ => .pure rfl

theorem matching (moves : deeper.Moves move) (start : Span) :
    Parser.Moves move (deeper.matching (start.relocate move)) (deeper.matching start) := by
  refine .bind moves.subexpr fun subject => .bind (.expect _) fun _ => ?_
  refine .bind (.list _ moves.matchArm) fun found => .pure (Spanned.relocate_mk ?_)
  show _ = Expr.relocate move _
  rw [Expr.relocate, relocateArms_eq]
  rfl

theorem braced (moves : deeper.Moves move) : Parser.Moves move deeper.braced deeper.braced :=
  .bind (.expect _) fun _ => .bind moves.subexpr fun _ => .bind (.expect _) fun _ => .pure rfl

theorem whileLoop (moves : deeper.Moves move) (start : Span) :
    Parser.Moves move (deeper.whileLoop (start.relocate move)) (deeper.whileLoop start) :=
  .bind moves.subexpr fun _ => .bind moves.braced fun _ => .pure (Spanned.relocate_mk rfl)

theorem forLoop (moves : deeper.Moves move) (start : Span) :
    Parser.Moves move (deeper.forLoop (start.relocate move)) (deeper.forLoop start) :=
  .bind (.name _) fun _ => .bind (.expect _) fun _ => .bind moves.subexpr fun _ =>
    .bind moves.braced fun _ => .pure (Spanned.relocate_mk rfl)

theorem exprBody (moves : deeper.Moves move) :
    Parser.Moves move deeper.exprBody deeper.exprBody := by
  refine .current fun found => ?_
  split
  · exact .bind .passed fun start => moves.conditional start
  · exact moves.bindingOver moves.subexpr
  · exact .bind .passed fun start => moves.matching start
  · exact .bind .passed fun start => moves.whileLoop start
  · exact .bind .passed fun start => moves.forLoop start
  · exact .bind .passed fun start => moves.block start
  · exact moves.tierBody 1

/-! ### Types -/

theorem referenceType (moves : deeper.Moves move) (start : Span) :
    Parser.Moves move (deeper.referenceType (start.relocate move))
      (deeper.referenceType start) := by
  refine .bind (.accept _) fun marked => .bind moves.subtype fun target => ?_
  cases marked with
  | none => exact .pure (Spanned.relocate_mk rfl)
  | some span => exact .pure (Spanned.relocate_mk rfl)

theorem arrayType (moves : deeper.Moves move) (start : Span) :
    Parser.Moves move (deeper.arrayType (start.relocate move)) (deeper.arrayType start) :=
  .bind moves.subtype fun _ => .bind (.expect _) fun _ => .bind .arrayLength fun _ =>
    .bind (.expect _) fun _ => .pure (Spanned.relocate_mk rfl)

theorem primitiveType (moves : deeper.Moves move) (base : Primitive) (start : Span) :
    Parser.Moves move (deeper.primitiveType base (start.relocate move))
      (deeper.primitiveType base start) := by
  unfold Level.primitiveType
  split
  · refine .bind (.accept _) fun found => ?_
    rcases found with _ | opened
    · exact .pure rfl
    · refine .bind (moves.exprs _) fun found => .note ?_ (.pure (Spanned.relocate_mk ?_))
      · show _ = Event.refined base found.1.length
        exact congrArg (Event.refined base) (List.length_map _)
      · show _ = Ty.relocate move _
        rw [Ty.relocate, relocateExprs_eq]
  · exact .pure rfl

theorem typeBody (moves : deeper.Moves move) :
    Parser.Moves move deeper.typeBody deeper.typeBody := by
  refine .current fun found => ?_
  split
  · exact .bind .passed fun start => moves.referenceType start
  · exact .bind .passed fun start => moves.arrayType start
  · exact .bind .passed fun _ => .bind (.expect _) fun _ => .pure (Spanned.relocate_mk rfl)
  · split
    · next base _ => exact .bind .passed fun start => moves.primitiveType base start
    · exact .fail _
  · exact .bind .passed fun _ => .pure rfl
  · exact .fail _

/-! ### All levels -/

theorem above (moves : deeper.Moves move) : deeper.above.Moves move where
  expr := moves.exprBody
  type := moves.typeBody
  signed := moves.signedBody
  binding := moves.bindingOver moves.blockRest
  tier := moves.tierBody

/-- The parsers of every level read moved tokens as the moved trees. -/
theorem tower (count : Nat) : (Level.tower count).Moves move := by
  induction count with
  | zero => exact ⟨.fail _, .fail _, .fail _, .fail _, fun _ => .fail _⟩
  | succ count deeper => exact deeper.above

end Level.Moves

namespace Parser.Moves

theorem top : Level.top.Moves move := .tower nestingLimit

theorem expression : Moves move Parser.expression Parser.expression := top.subexpr

theorem type : Moves move Parser.type Parser.type := top.subtype

end Parser.Moves

end ContractSyntax
