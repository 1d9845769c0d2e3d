/-
**Expressions and types that fail have begun a sentence.**

A level follows the grammar if each of its parsers, when it fails, has passed the beginning of a phrase
of its category. Each parser of the level above goes along the row of one rule, so it does so too, and
by induction all levels do. Where a parser is committed to a rule by the tokens ahead, as to an
assignment by a name and an equals sign, the rule goes on from there in some way whatever comes next.

* `Level.Follows.above`: following is handed from level to level;
* `Level.follows_tower`: so all levels follow the grammar.
-/

import ContractSyntax.Proofs.Failure.Repetition

namespace ContractSyntax

open ContractSyntax.Parser

/-- Every parser of the level that fails has begun a phrase of its category. -/
structure Level.Follows (level : Level) : Prop where
  sound : level.Sound
  expr (cursor : Cursor) : level.expr.Fails cursor (Starts [.of .expr])
  unbound (cursor : Cursor) (other : cursor.current? ≠ some (.keyword .let_)) :
    level.expr.Fails cursor (Starts [.of .unbound])
  type (cursor : Cursor) : level.type.Fails cursor (Starts [.of .type])
  signed (cursor : Cursor) : level.signed.Fails cursor (Starts [.of .unary])
  binding (cursor : Cursor) : level.binding.Fails cursor (Starts [.of .statements])
  tier (power : Nat) (infixes : power ≤ unaryPower) (cursor : Cursor) :
    (level.tier power).Fails cursor (Starts [.of (.tier power)])

namespace Level

theorem follows_ground : ground.Follows where
  sound := sound_ground
  expr _ := .fail (.stop _)
  unbound _ _ := .fail (.stop _)
  type _ := .fail (.stop _)
  signed _ := .fail (.stop _)
  binding _ := .fail (.stop _)
  tier _ _ _ := .fail (.stop _)

namespace Follows

variable {deeper : Level} {cursor : Cursor}

theorem subexpr (follows : deeper.Follows) : deeper.subexpr.Follows cursor [.of .expr] where
  spells := follows.sound.subexpr.mono fun _ _ _ _ derived => derived.sentence.1.last
  fails := .nested (follows.expr cursor) (.stop _)

/-- An expression that does not start with `let` is none. -/
theorem subexpr_unbound (follows : deeper.Follows) (other : cursor.current? ≠ some (.keyword .let_)) :
    deeper.subexpr.Follows cursor [.of .unbound] where
  spells := by
    intro room value height after ran
    obtain ⟨tokens, passes, derived⟩ := follows.sound.subexpr _ _ _ _ ran
    have unbound := Sound.head_of_passes passes other
    exact ⟨tokens, passes, (derived.sentence.2 (by rwa [List.head?_map])).last⟩
  fails := .nested (follows.unbound cursor other) (.stop _)

theorem subtype (follows : deeper.Follows) : deeper.subtype.Follows cursor [.of .type] where
  spells := follows.sound.subtype.mono fun _ _ _ _ derived => derived.sentence.last
  fails := .nested (follows.type cursor) (.stop _)

/-! ### Operands -/

theorem exprs (follows : deeper.Follows) (close : Symbol) :
    (deeper.exprs close).Follows cursor [.of (.list .expr), .sign close] :=
  .list close fun _ => follows.subexpr

/-- Arguments fail behind the opening parenthesis. -/
theorem arguments? (follows : deeper.Follows) {begun : List Token → Prop}
    (begins : ∀ tokens,
      Starts [.sign .leftParen, .of (.list .expr), .sign .rightParen] tokens → begun tokens) :
    deeper.arguments?.Fails cursor begun := by
  refine .accept (fun _ middle => ?_) fun _ => .pure
  exact (Fails.last (follows.exprs .rightParen).fails fun _ _ _ => .pure).mono fun tokens given =>
    begins _ (.token _ given)

theorem fieldValue (follows : deeper.Follows) :
    deeper.fieldValue.Follows cursor [.of .field] where
  spells := follows.sound.fieldValue.mono fun _ _ _ _ derived => derived.sentence.last
  fails := .enter .field (.name fun _ _ => .expect fun _ _ =>
    .last follows.subexpr.fails fun _ _ _ => .pure)

theorem variantRest (follows : deeper.Follows) (enumeration : Name) :
    (deeper.variantRest enumeration).Fails cursor fun tokens =>
      Starts [.of .primary] (.ident enumeration.node :: .symbol .colonColon :: tokens) := by
  have first := Sentence.name enumeration.node
  refine .someName (.within .variantOperand (first.begins (.token _ (.stop _)))) fun variant _ => ?_
  refine .last (follows.arguments? fun tokens given => ?_) fun found _ _ => ?_
  · exact .within .variantOperandOf (first.begins (.token _ ((Sentence.name _).begins given)))
  · cases found <;> exact .pure

theorem named (follows : deeper.Follows) (first : Name) :
    (deeper.named first).Fails cursor fun tokens =>
      Starts [.of .primary] (.ident first.node :: tokens) := by
  have given : deeper.arguments?.Fails cursor fun tokens =>
      Starts [.of .primary] (.ident first.node :: tokens) :=
    follows.arguments? fun tokens given => .within .call ((Sentence.name _).begins given)
  refine .bind given follows.sound.arguments? fun passed found height _ _ holds => ?_
  rcases found with _ | ⟨given, stop⟩
  · obtain ⟨rfl, rfl⟩ := holds
    exact .accept (fun _ _ => follows.variantRest first) fun _ => .pure
  · exact .pure

theorem parenthesis (follows : deeper.Follows) (start : Span) :
    (deeper.parenthesis start).Fails cursor fun tokens =>
      Starts [.of .primary] (.symbol .leftParen :: tokens) :=
  .accept (fun _ _ => .pure) fun _ =>
    .under .paren (.row follows.subexpr fun _ _ => .expect fun _ _ => .pure)

theorem construct (follows : deeper.Follows) (start : Span) :
    (deeper.construct start).Fails cursor fun tokens =>
      Starts [.of .primary] (.keyword .new :: tokens) :=
  .under .construct (.name fun _ _ => .expect fun _ _ =>
    .last (Follows.list .rightBrace fun _ => follows.fieldValue).fails fun _ _ _ => .pure)

theorem primary (follows : deeper.Follows) :
    deeper.primary.Fails cursor (Starts [.of .primary]) := by
  refine .current ?_
  split
  · next here => exact .literalValue (.stop _) fun _ _ => .pass here fun _ _ => .pure
  · next here => exact .literalValue (.stop _) fun _ _ => .pass here fun _ _ => .pure
  · next here => exact .pass here fun _ _ => .pure
  · next here => exact .pass here fun _ _ => .pure
  · next here => exact .pass here fun _ _ => .pure
  · next here => exact .pass here fun _ _ => .pure
  · next here => exact .pass here fun _ _ => .pure
  · next here => exact .pass here fun start _ => follows.construct start
  · next here => exact .pass here fun start _ => follows.parenthesis start
  · next here =>
    exact .pass here fun _ _ => .under .array
      (.last (follows.exprs .rightBracket).fails fun _ _ _ => .pure)
  · next here => exact .pass here fun span _ => follows.named ⟨_, span⟩
  · exact .fail (.stop _)

/-! ### Suffixes -/

/-- What is passed of a suffix begins an operand together with the receiver. -/
def SuffixBegun (tokens : List Token) : Prop :=
  ∀ receiver, Sentence .suffixed receiver → Starts [.of .suffixed] (receiver ++ tokens)

theorem dotSuffix (follows : deeper.Follows) (receiver : Spanned Expr) :
    (deeper.dotSuffix receiver).Fails cursor fun tokens =>
      SuffixBegun (.symbol .dot :: tokens) := by
  refine .current ?_
  split
  · next here => exact .pass here fun _ _ => .pure
  · next here => exact .pass here fun _ _ => .pure
  · next here =>
    refine .pass here fun _ _ => .last (follows.arguments? fun tokens given => ?_) fun found _ _ => ?_
    · exact fun before sentence => .within .methodCall (sentence.begins (.token _
        ((Sentence.name _).begins given)))
    · cases found <;> exact .pure
  · exact .fail fun before sentence => .within .access (sentence.begins (.token _ (.stop _)))

theorem indexSuffix (follows : deeper.Follows) (receiver : Spanned Expr) :
    (deeper.indexSuffix receiver).Fails cursor fun tokens =>
      SuffixBegun (.symbol .leftBracket :: tokens) := by
  have position : (deeper.indexSuffix receiver).Fails cursor
      (Starts [.of .expr, .sign .rightBracket]) :=
    .row follows.subexpr fun _ _ => .expect fun _ _ => .pure
  exact position.mono fun tokens begun before sentence =>
    .within .index (sentence.begins (.token _ begun))

theorem suffixLink (follows : deeper.Follows) {link : Spanned Expr → Parser (Spanned Expr)}
    (found : cursor.current?.bind deeper.suffix? = some link) (receiver : Spanned Expr) :
    (link receiver).Fails cursor SuffixBegun := by
  obtain ⟨token, here, found⟩ := Option.bind_eq_some_iff.mp found
  unfold Level.suffix? at found
  split at found
  · cases found
    exact .pass here fun _ _ => follows.dotSuffix receiver
  · cases found
    exact .pass here fun _ _ => follows.indexSuffix receiver
  · cases found

theorem suffixed (follows : deeper.Follows) :
    deeper.suffixed.Fails cursor (Starts [.of .suffixed]) := by
  refine .chain (.enter .operand follows.primary) follows.sound.unsuffixed ?_ ?_ ?_
  · exact fun _ _ _ _ _ derived found => follows.sound.suffixLink found derived
  · exact fun _ _ _ _ derived => derived.sentence.started
  · intro passed receiver height middle link derived found
    exact (follows.suffixLink found receiver).mono fun tokens begun => begun _ derived.sentence

/-! ### Operators -/

theorem leastDigits? {begun : List Token → Prop} : leastDigits?.Fails cursor begun := by
  refine .current ?_
  split
  · next here =>
    refine .second ?_
    split
    · exact .pure
    · exact .pure
    · exact .pass here fun _ _ => .pure
  · exact .pure

theorem operand (follows : deeper.Follows) (operator : UnaryOperator) (start : Span) :
    (deeper.operand operator start).Fails cursor (Starts [.of .unary]) :=
  .last (.nested (follows.signed cursor) (.stop _)) fun _ _ _ => .pure

theorem signedBody (follows : deeper.Follows) :
    deeper.signedBody.Fails cursor (Starts [.of .unary]) := by
  refine .current ?_
  split
  · next here =>
    refine .pass here fun sign _ => .bind leastDigits? Sound.leastDigits? ?_
    rintro passed (_ | span) height middle _ ⟨_, rfl⟩
    · exact .under .negate (follows.operand .negate sign)
    · exact .pure
  · next here =>
    exact .pass here fun sign _ => .under .dereference (follows.operand .dereference sign)
  · next here => exact .pass here fun sign _ => .under .not (follows.operand .not sign)
  · next here =>
    refine .pass here fun sign _ => .accept (fun _ _ => ?_) fun _ => ?_
    · exact (follows.operand .mutableReference sign).mono fun tokens begun =>
        .within .referMutably (.token _ (.token _ begun))
    · exact .under .referTo (follows.operand .reference sign)
  · exact .enter .unsigned follows.suffixed

/-- The right operand of an operator begins on the tier above it. -/
theorem infixLink (follows : deeper.Follows) {power : Nat}
    {link : Spanned Expr → Parser (Spanned Expr)}
    (found : cursor.current?.bind (deeper.infixed? power) = some link) {passed : Tokens}
    {left : Spanned Expr} {height : Nat} (operand : Derives.Operand power passed left height cursor) :
    (link left).Fails cursor fun tokens => Starts [.of (.tier power)] (nodes passed ++ tokens) := by
  obtain ⟨token, here, found⟩ := Option.bind_eq_some_iff.mp found
  obtain ⟨operator, operates, tight, rfl⟩ := Sound.infixed?_eq_some found
  have bound : operator.power < unaryPower := Nat.lt_succ_of_le operator.power_le
  have left := (operand.2 operator (by rw [here]; exact operates) tight).sentence (Nat.le_of_lt bound)
  have spelled := BinaryOperator.token_of_ofToken? operates
  subst spelled
  refine .pass here fun _ middle => ?_
  refine .mono (.last (follows.tier _ bound middle) fun _ _ _ => .pure) fun tokens right => ?_
  exact .lower tight (Nat.le_of_lt bound) (.within (.binary operator) (left.begins (.token _ right)))

theorem tierBody (follows : deeper.Follows) {power : Nat} (infixes : power ≤ unaryPower) :
    (deeper.tierBody power).Fails cursor (Starts [.of (.tier power)]) := by
  refine .chain ?_ (follows.sound.lone power) ?_ ?_ ?_
  · exact follows.signedBody.mono fun tokens begun =>
      .lower infixes (Nat.le_refl _) (.within .tightest begun)
  · exact fun _ _ _ _ _ operand found => follows.sound.infixLink found operand
  · exact fun _ _ _ _ operand => (operand.1.sentence infixes).started
  · exact fun _ _ _ _ _ operand found => follows.infixLink found operand

/-! ### Blocks -/

/-- A statement may be the last one, if its semicolon is still to come. -/
theorem statement_started {tokens : Tokens} {tree : Spanned Expr} {height : Nat} {after : Cursor}
    (statement : Sound.Statement tokens tree height after) :
    Starts [.of .statements] (nodes tokens) := by
  rcases statement with ⟨derived, other⟩ | ⟨target, equal, value, passed, rfl, -, derived⟩
  · exact .within .value (derived.sentence.2 (by rwa [List.head?_map])).started
  · exact .within .assignment ((Sentence.name _).begins (.token _ derived.sentence.1.started))

/-- Other statements may follow a statement and its semicolon. -/
theorem statement_begins {tokens : Tokens} {tree : Spanned Expr} {height : Nat} {after : Cursor}
    {others : List Token} (statement : Sound.Statement tokens tree height after)
    (begun : Starts [.of .statements] others) :
    Starts [.of .statements] (nodes tokens ++ .symbol .semicolon :: others) := by
  rcases statement with ⟨derived, other⟩ | ⟨target, equal, value, passed, rfl, -, derived⟩
  · have unbound := derived.sentence.2 (by rwa [List.head?_map])
    exact .within .statement (unbound.begins (.token _ begun))
  · exact .within .assignment ((Sentence.name _).begins (.token _
      (derived.sentence.1.begins (.token _ begun))))

theorem blockExpr (follows : deeper.Follows) (other : cursor.current? ≠ some (.keyword .let_)) :
    deeper.blockExpr.Fails cursor (Starts [.of .statements]) := by
  refine .enter .value (.row (follows.subexpr_unbound other) fun expr middle => .current ?_)
  split
  · exact .pure
  · exact .pure
  · exact .fail (.stop _)

theorem blockEntry (follows : deeper.Follows) :
    deeper.blockEntry.Fails cursor (Starts [.of .statements]) := by
  refine .current ?_
  split
  · exact .pure
  · exact .pure
  · exact .last (.nested (follows.binding cursor) (.stop _)) fun _ _ _ => .pure
  · next other =>
    refine .nameBefore (fun target middle => ?_) (follows.blockExpr fun here => other here)
    have value : (deeper.assignment target).Fails middle (Starts [.of .expr]) :=
      .last follows.subexpr.fails fun _ _ _ => .pure
    refine (Fails.last value fun _ _ _ => .pure).mono fun tokens begun => ?_
    exact .within .assignment ((Sentence.name _).begins (.token _ (begun.append _)))

theorem blockItems (follows : deeper.Follows) :
    deeper.blockItems.Follows cursor [.of .statements] where
  spells := follows.sound.blockItems.mono fun _ _ _ _ derived => derived.sentence.last
  fails := .sequence (fun _ => follows.sound.blockEntry) (fun _ => follows.blockEntry)
    (fun _ _ _ _ statement => statement_started statement)
    (fun _ _ _ _ _ statement begun => statement_begins statement begun)

theorem block (follows : deeper.Follows) (start : Span) :
    (deeper.block start).Fails cursor (Starts [.of .statements, .sign .rightBrace]) :=
  .row follows.blockItems fun _ _ => .expect fun _ _ => .pure

theorem blockRest (follows : deeper.Follows) :
    deeper.blockRest.Fails cursor (Starts [.of .statements]) := by
  refine .here (.last follows.blockItems.fails fun found _ _ => ?_)
  split
  · exact .pure
  · exact .lastStop .pure

/-! ### Constructs -/

theorem statedType? (follows : deeper.Follows) :
    deeper.statedType?.Follows cursor [.of .typing] where
  spells := follows.sound.statedType?.mono fun _ _ _ _ derived => derived.sentence.last
  fails := .accept (fun _ _ => .under .annotated
    (.last follows.subtype.fails fun _ _ _ => .pure)) fun _ => .pure

theorem mutability : (accept (.keyword .mut_)).Follows cursor [.of .mutability] where
  spells := Yields.accepted.mono fun tokens found height after holds => by
    rcases holds with ⟨span, rfl, rfl, rfl⟩ | ⟨_, rfl, rfl, rfl, rfl⟩
    · exact Sentence.last ⟨_, .mutable, .token _ .nothing⟩
    · exact Sentence.last ⟨_, .immutable, .nothing⟩
  fails := .current <| by
    split
    · next here => exact .pass here fun _ _ => .pure
    · exact .pure

/-- A binding fails along its row, whatever is its body. -/
theorem bindingOver (follows : deeper.Follows) {body : Parser (Spanned Expr)} {category : Category}
    (last : ∀ cursor, body.Fails cursor (Starts [.of category])) :
    (deeper.bindingOver body).Fails cursor
      (Starts [.word .let_, .of .mutability, .of .name, .of .typing, .sign .equal, .of .expr,
        .sign .semicolon, .of category]) := by
  refine .expect fun _ _ => .row mutability fun _ _ => .name fun _ _ => ?_
  refine .row follows.statedType? fun _ _ => .expect fun _ _ => ?_
  refine .row follows.subexpr fun _ _ => .expect fun _ middle => ?_
  exact .last (last middle) fun _ _ _ => .note .pure

theorem bindingBody (follows : deeper.Follows) :
    deeper.bindingBody.Fails cursor (Starts [.of .statements]) :=
  .enter .bindingRest (follows.bindingOver fun _ => follows.blockRest)

theorem conditional (follows : deeper.Follows) (start : Span) :
    (deeper.conditional start).Fails cursor
      (Starts [.of .expr, .word .then_, .of .expr, .word .else_, .of .expr]) := by
  refine .row follows.subexpr fun _ _ => .expect fun _ _ => ?_
  refine .row follows.subexpr fun _ _ => .expect fun _ _ => ?_
  exact .last follows.subexpr.fails fun _ _ _ => .pure

theorem variantPattern (enumeration : Name) :
    (variantPattern enumeration).Fails cursor fun tokens =>
      Starts [.of .pattern] (.ident enumeration.node :: .symbol .colonColon :: tokens) := by
  have first := Sentence.name enumeration.node
  refine .someName (.within .variantPattern (first.begins (.token _ (.stop _)))) fun variant _ => ?_
  refine .accept (fun _ _ => ?_) fun _ => .pure
  refine .mono (.last (Follows.list .rightParen fun _ => .ident).fails fun _ _ _ => .pure) ?_
  intro tokens names
  exact .within .variantPatternOf (first.begins (.token _ ((Sentence.name _).begins
    (.token _ names))))

theorem pattern : pattern.Follows cursor [.of .pattern] where
  spells := Sound.pattern.mono fun _ _ _ _ derived => derived.2.sentence.last
  fails := .current <| by
    split
    · next here => exact .literalValue (.stop _) fun _ _ => .pass here fun _ _ => .pure
    · next here => exact .literalValue (.stop _) fun _ _ => .pass here fun _ _ => .pure
    · next here => exact .pass here fun _ _ => .pure
    · next here => exact .pass here fun _ _ => .pure
    · next here => exact .pass here fun _ _ => .pure
    · next here => exact .pass here fun _ _ => .pure
    · next text here =>
      refine .pass here fun place _ => .accept (fun _ _ => ?_) fun _ => .pure
      exact variantPattern ⟨text, place⟩
    · exact .fail (.stop _)

theorem matchArm (follows : deeper.Follows) : deeper.matchArm.Follows cursor [.of .arm] where
  spells := follows.sound.matchArm.mono fun _ _ _ _ derived => derived.sentence.last
  fails := .enter .arm (.row pattern fun _ _ => .expect fun _ _ =>
    .last follows.subexpr.fails fun _ _ _ => .pure)

theorem matching (follows : deeper.Follows) (start : Span) :
    (deeper.matching start).Fails cursor
      (Starts [.of .expr, .sign .leftBrace, .of (.list .arm), .sign .rightBrace]) :=
  .row follows.subexpr fun _ _ => .expect fun _ _ =>
    .last (Follows.list .rightBrace fun _ => follows.matchArm).fails fun _ _ _ => .pure

theorem braced (follows : deeper.Follows) :
    deeper.braced.Fails cursor (Starts [.sign .leftBrace, .of .expr, .sign .rightBrace]) :=
  .expect fun _ _ => .row follows.subexpr fun _ _ => .expect fun _ _ => .pure

theorem whileLoop (follows : deeper.Follows) (start : Span) :
    (deeper.whileLoop start).Fails cursor
      (Starts [.of .expr, .sign .leftBrace, .of .expr, .sign .rightBrace]) :=
  .row follows.subexpr fun _ _ => .last follows.braced fun _ _ _ => .pure

theorem forLoop (follows : deeper.Follows) (start : Span) :
    (deeper.forLoop start).Fails cursor
      (Starts [.of .name, .word .in_, .of .expr, .sign .leftBrace, .of .expr, .sign .rightBrace]) :=
  .name fun _ _ => .expect fun _ _ => .row follows.subexpr fun _ _ =>
    .last follows.braced fun _ _ _ => .pure

theorem unboundBody (follows : deeper.Follows) (other : cursor.current? ≠ some (.keyword .let_)) :
    deeper.exprBody.Fails cursor (Starts [.of .unbound]) := by
  refine .current ?_
  split
  · next here => exact .pass here fun start _ => .under .conditional (follows.conditional start)
  · next here => exact absurd here other
  · next here => exact .pass here fun start _ => .under .matching (follows.matching start)
  · next here => exact .pass here fun start _ => .under .whileLoop (follows.whileLoop start)
  · next here => exact .pass here fun start _ => .under .forLoop (follows.forLoop start)
  · next here => exact .pass here fun start _ => .under .block (follows.block start)
  · exact .enter .operators (follows.tierBody (by decide))

theorem exprBody (follows : deeper.Follows) :
    deeper.exprBody.Fails cursor (Starts [.of .expr]) := by
  by_cases here : cursor.current? = some (.keyword .let_)
  · refine .current ?_
    rw [here]
    exact .enter .binding (follows.bindingOver fun cursor => follows.subexpr.fails)
  · exact .enter .unbound (follows.unboundBody here)

/-! ### Types -/

/-- The rest of an array type, after the bracket. -/
def ArrayBegun (tokens : List Token) : Prop :=
  ∃ digits, digitsValue digits.toList < UInt64.size ∧
    Starts [.of .type, .sign .semicolon, .token (.int digits), .sign .rightBracket] tokens

/-- A length out of range stands where one in range could stand. -/
theorem arrayLength :
    arrayLength.Fails cursor (Starts [.token (.int "0"), .sign .rightBracket]) := by
  refine .current ?_
  split
  · next digits here =>
    intro room error after ran
    rw [run_bind] at ran
    simp only [Parser.pass] at ran
    split at ran
    · cases ran
    · simp only [failWith, failAt, Outcome.above, Outcome.failed.injEq] at ran
      obtain ⟨rfl, rfl⟩ := ran
      have same : (⟨.lengthRange digits, some (.int digits), cursor.span⟩ : SyntaxError) =
          cursor.error (.lengthRange digits) := by rw [Cursor.error, here]
      rw [same]
      exact .behind (Cursor.passes_nil cursor) here (.token _ (.stop _))
  · exact .fail (.stop _)

theorem referenceType (follows : deeper.Follows) (start : Span) :
    (deeper.referenceType start).Fails cursor (Starts [.of .mutability, .of .type]) :=
  .row mutability fun _ _ => .last follows.subtype.fails fun _ _ _ => .pure

theorem arrayType (follows : deeper.Follows) (start : Span) :
    (deeper.arrayType start).Fails cursor ArrayBegun := by
  have zero : digitsValue "0".toList < UInt64.size := by decide
  have type : deeper.subtype.Fails cursor ArrayBegun :=
    follows.subtype.fails.mono fun tokens type => ⟨"0", zero, type.append _⟩
  refine .bind type follows.subtype.spells fun passed element height middle _ type => ?_
  refine .someToken ⟨"0", zero, type.starts (.stop _)⟩ fun _ _ => ?_
  refine .bind (arrayLength.mono fun tokens begun => ?_) Sound.arrayLength ?_
  · exact ⟨"0", zero, type.starts (.token _ begun)⟩
  rintro _ length _ last _ ⟨digits, span, rfl, read, -⟩
  have begun := type.starts (.token (.symbol .semicolon) (.token (.int digits)
    (.stop [.sign .rightBracket])))
  exact .someToken ⟨digits, readUInt64?_lt read, begun⟩ fun _ _ => .pure

theorem primitiveType (follows : deeper.Follows) (base : Primitive) (start : Span) :
    (deeper.primitiveType base start).Fails cursor fun tokens =>
      Starts [.of .type] (.keyword base.word :: tokens) := by
  unfold Level.primitiveType
  split
  · next refinable =>
    refine .accept (fun _ _ => ?_) fun _ => .pure
    refine .mono (.last (follows.exprs .rightBrace).fails fun _ _ _ => .note .pure) ?_
    intro tokens constraints
    have refines : base ≠ .string := by
      rintro rfl
      cases refinable
    exact .within (.refined refines) (.token _ (.token _ constraints))
  · exact .pure

theorem typeBody (follows : deeper.Follows) :
    deeper.typeBody.Fails cursor (Starts [.of .type]) := by
  refine .current ?_
  split
  · next here => exact .pass here fun start _ => .under .reference (follows.referenceType start)
  · next here =>
    refine .pass here fun start _ => (follows.arrayType start).mono ?_
    rintro tokens ⟨digits, fits, begun⟩
    exact .within (.arrayType fits) (.token _ begun)
  · next here => exact .pass here fun _ _ => .under .unitType (.expect fun _ _ => .pure)
  · next word here =>
    split
    · next base found =>
      have spelled := Primitive.word_of_ofWord? found
      subst spelled
      exact .pass here fun start _ => follows.primitiveType base start
    · exact .fail (.stop _)
  · next here => exact .pass here fun _ _ => .pure
  · exact .fail (.stop _)

/-! ### All levels -/

theorem above (follows : deeper.Follows) : deeper.above.Follows where
  sound := follows.sound.above
  expr _ := follows.exprBody
  unbound _ other := follows.unboundBody other
  type _ := follows.typeBody
  signed _ := follows.signedBody
  binding _ := follows.bindingBody
  tier _ infixes _ := follows.tierBody infixes

end Follows

theorem follows_tower (count : Nat) : (tower count).Follows := by
  induction count with
  | zero => exact follows_ground
  | succ count deeper => exact deeper.above

end Level

end ContractSyntax
