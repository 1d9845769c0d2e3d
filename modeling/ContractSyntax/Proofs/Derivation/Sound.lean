/-
**Every expression and type that is read has a derivation.**

A level is sound if whatever its parsers read has a derivation of the same height. Each parser of
the level above is then sound too, and by induction all levels are. For infix operators it is also
kept in mind that no operator follows which the tier would have taken: that is why the left operand
of the next operator binds as tightly as it has to.

* `Level.Sound.above`: soundness is handed from level to level;
* `Level.sound_tower`: so all levels are sound.
-/

import ContractSyntax.Proofs.Derivation.Repetition
import ContractSyntax.Grammar.Expr

namespace ContractSyntax

open ContractSyntax.Parser

/-- A literal at the cursor is in range. -/
theorem Parser.Yields.literalValue {α β : Type} {value? : Option α} {cause : Cause}
    {next : α → Parser β} {cursor : Cursor} {meaning : Tokens → β → Nat → Cursor → Prop}
    (continued : ∀ value, value? = some value → (next value).Yields cursor meaning) :
    (Parser.literalValue value? cause >>= next).Yields cursor meaning := by
  cases value? with
  | none =>
    intro room value height after ran
    cases ran
  | some value => exact .silent (Cursor.passes_nil cursor) (fun _ => rfl) (continued value rfl)

/-- That what a phrase derives is what a parser passes. -/
abbrev Derives.Meaning (phrase : Phrase) (tokens : Tokens) (tree : phrase.Tree) (height : Nat)
    (_ : Cursor) : Prop := Derives phrase tokens tree height

/-- Operators that bind as tightly as stated, where none of them follows. -/
def Derives.Tier (power : Nat) (tokens : Tokens) (tree : Spanned Expr) (height : Nat)
    (after : Cursor) : Prop :=
  Derives (.tier power) tokens tree height ∧
    ∀ operator, after.current?.bind BinaryOperator.ofToken? = some operator →
      operator.power < power

/-- Operators that bind as tightly as stated; whichever of them comes next, these tokens can be its
left operand. -/
def Derives.Operand (power : Nat) (tokens : Tokens) (tree : Spanned Expr) (height : Nat)
    (after : Cursor) : Prop :=
  Derives (.tier power) tokens tree height ∧
    ∀ operator, after.current?.bind BinaryOperator.ofToken? = some operator →
      power ≤ operator.power → Derives (.tier operator.power) tokens tree height

/-- Whatever the parsers of a level read has a derivation. -/
structure Level.Sound (level : Level) : Prop where
  expr (cursor : Cursor) : level.expr.Yields cursor (Derives.Meaning .expr)
  type (cursor : Cursor) : level.type.Yields cursor (Derives.Meaning .type)
  signed (cursor : Cursor) : level.signed.Yields cursor (Derives.Meaning .signed)
  binding (cursor : Cursor) : level.binding.Yields cursor fun tokens tree height after =>
    Derives (.binding after.span.start) tokens tree height
  tier (power : Nat) (cursor : Cursor) : (level.tier power).Yields cursor (Derives.Tier power)

namespace Level

theorem sound_ground : ground.Sound where
  expr _ := .fail
  type _ := .fail
  signed _ := .fail
  binding _ := .fail
  tier _ _ := .fail

namespace Sound

variable {deeper : Level} {cursor : Cursor}

theorem subexpr (sound : deeper.Sound) :
    deeper.subexpr.Yields cursor (Derives.Meaning .subexpr) :=
  .nested (sound.expr cursor) fun _ _ _ _ derived => .nested derived

theorem subtype (sound : deeper.Sound) :
    deeper.subtype.Yields cursor (Derives.Meaning .subtype) :=
  .nested (sound.type cursor) fun _ _ _ _ derived => .nestedType derived

/-! ### Operands -/

theorem exprs (sound : deeper.Sound) (close : Symbol) :
    (deeper.exprs close).Yields cursor fun tokens found height _ =>
      ∃ passed, tokens = passed ++ [⟨.symbol close, found.2⟩] ∧
        Row (Derives .subexpr) passed found.1 height :=
  .list fun _ => sound.subexpr

/-- Arguments in parentheses, or no parenthesis. -/
def Arguments (tokens : Tokens) (found : Option (List (Spanned Expr) × Span)) (height : Nat) :
    Prop :=
  match found with
  | none => tokens = [] ∧ height = 0
  | some (given, stop) => ∃ start passed,
      tokens = ⟨.symbol .leftParen, start⟩ :: (passed ++ [⟨.symbol .rightParen, stop⟩]) ∧
        Row (Derives .subexpr) passed given height

theorem arguments? (sound : deeper.Sound) :
    deeper.arguments?.Yields cursor fun tokens found height _ =>
      Arguments tokens found height := by
  refine .accept (fun start middle _ => ?_) fun _ => .pure ⟨rfl, rfl⟩
  refine .bind (sound.exprs .rightParen) fun _ found height _ _ ⟨passed, same, row⟩ => .pure ?_
  exact ⟨start, passed, by simp [same], by simpa using row⟩

theorem fieldValue (sound : deeper.Sound) :
    deeper.fieldValue.Yields cursor (Derives.Meaning .field) := by
  refine .name fun field _ _ => .expect fun colon _ _ => ?_
  refine .bind sound.subexpr fun tokens value height _ _ derived => .pure ?_
  simpa [Derives.Meaning] using Derives.field field colon derived

theorem variantRest (sound : deeper.Sound) (enumeration : Name) :
    (deeper.variantRest enumeration).Yields cursor fun tokens tree height _ =>
      ∀ colons, Derives .primary (enumeration.ident :: ⟨.symbol .colonColon, colons⟩ :: tokens)
        tree height := by
  refine .name fun variant _ _ => ?_
  refine .bind sound.arguments? fun tokens found height _ _ holds => ?_
  rcases found with _ | ⟨given, stop⟩
  · obtain ⟨rfl, rfl⟩ := holds
    exact .pure fun colons => .variant enumeration variant colons
  · obtain ⟨start, passed, rfl, parts, commas, rfl, rfl, each⟩ := holds
    refine .pure fun colons => ?_
    simpa using Derives.variantOf enumeration variant colons start stop parts commas each

theorem named (sound : deeper.Sound) (first : Name) :
    (deeper.named first).Yields cursor fun tokens tree height _ =>
      Derives .primary (first.ident :: tokens) tree height := by
  refine .bind sound.arguments? fun tokens found height _ _ holds => ?_
  rcases found with _ | ⟨given, stop⟩
  · obtain ⟨rfl, rfl⟩ := holds
    refine .accept (fun colons _ _ => ?_) fun _ => .pure (.var first)
    refine (sound.variantRest first).mono fun tokens tree height _ derived => ?_
    simpa using derived colons
  · obtain ⟨start, passed, rfl, parts, commas, rfl, rfl, each⟩ := holds
    refine .pure ?_
    simpa using Derives.call first start stop parts commas each

theorem parenthesis (sound : deeper.Sound) (start : Span) :
    (deeper.parenthesis start).Yields cursor fun tokens tree height _ =>
      Derives .primary (⟨.symbol .leftParen, start⟩ :: tokens) tree height := by
  refine .accept (fun stop _ _ => .pure (.unit start stop)) fun _ => ?_
  refine .bind sound.subexpr fun tokens inner height _ _ derived => ?_
  refine .expect fun stop _ _ => .pure ?_
  simpa using Derives.paren start stop derived

theorem construct (sound : deeper.Sound) (start : Span) :
    (deeper.construct start).Yields cursor fun tokens tree height _ =>
      Derives .primary (⟨.keyword .new, start⟩ :: tokens) tree height := by
  refine .name fun struct _ _ => .expect fun opened _ _ => ?_
  refine .bind (.list fun _ => sound.fieldValue) fun _ found height _ _ ⟨passed, same, row⟩ => ?_
  obtain ⟨parts, commas, values, rfl, each⟩ := row
  refine .pure ?_
  simpa [same, values] using
    Derives.construct start opened found.2 struct parts commas each

theorem primary (sound : deeper.Sound) :
    deeper.primary.Yields cursor (Derives.Meaning .primary) := by
  refine .current ?_
  split
  · next digits here =>
    exact .literalValue fun value read => .pass here fun span _ _ => .pure (.int read span)
  · next digits here =>
    exact .literalValue fun value read => .pass here fun span _ _ => .pure (.float read span)
  · next content here => exact .pass here fun span _ _ => .pure (.string content span)
  · next here => exact .pass here fun span _ _ => .pure (.true span)
  · next here => exact .pass here fun span _ _ => .pure (.false span)
  · next here => exact .pass here fun span _ _ => .pure (.ret span)
  · next here => exact .pass here fun span _ _ => .pure (.it span)
  · next here => exact .pass here fun span _ _ => sound.construct span
  · next here => exact .pass here fun span _ _ => sound.parenthesis span
  · next here =>
    refine .pass here fun start _ _ => ?_
    refine .bind (sound.exprs .rightBracket) fun _ found height _ _ ⟨passed, same, row⟩ => ?_
    obtain ⟨parts, commas, values, rfl, each⟩ := row
    refine .pure ?_
    simpa [Derives.Meaning, same, values] using
      Derives.array start found.2 parts commas each
  · next text here => exact .pass here fun span _ _ => sound.named ⟨text, span⟩
  · exact .fail

/-! ### Suffixes -/

/-- What a suffix makes of a receiver. -/
def Suffixed (receiver : Spanned Expr) (tokens : Tokens) (tree : Spanned Expr) (height : Nat) :
    Prop :=
  ∀ before depth, Derives .suffixed before receiver depth →
    Derives .suffixed (before ++ tokens) tree (depth + 1 + height)

theorem dotSuffix (sound : deeper.Sound) (receiver : Spanned Expr) (dot : Span) :
    (deeper.dotSuffix receiver).Yields cursor fun tokens tree height _ =>
      Suffixed receiver (⟨.symbol .dot, dot⟩ :: tokens) tree height := by
  refine .current ?_
  split
  · next here =>
    exact .pass here fun stop _ _ => .pure fun before depth derived => .state .pre dot stop derived
  · next here =>
    exact .pass here fun stop _ _ => .pure fun before depth derived => .state .post dot stop derived
  · next text here =>
    refine .pass here fun span _ _ => ?_
    refine .bind sound.arguments? fun tokens found height _ _ holds => ?_
    rcases found with _ | ⟨given, stop⟩
    · obtain ⟨rfl, rfl⟩ := holds
      exact .pure fun before depth derived => .member ⟨text, span⟩ dot derived
    · obtain ⟨start, passed, rfl, parts, commas, rfl, rfl, each⟩ := holds
      refine .pure fun before depth derived => ?_
      simpa using Derives.methodCall ⟨text, span⟩ dot start stop derived parts commas each
  · exact .fail

theorem indexSuffix (sound : deeper.Sound) (receiver : Spanned Expr) (start : Span) :
    (deeper.indexSuffix receiver).Yields cursor fun tokens tree height _ =>
      Suffixed receiver (⟨.symbol .leftBracket, start⟩ :: tokens) tree height := by
  refine .bind sound.subexpr fun tokens position height _ _ inner => ?_
  refine .expect fun stop _ _ => .pure fun before depth derived => ?_
  simpa using Derives.index start stop derived inner

theorem suffix? (sound : deeper.Sound) {token : Token}
    {link : Spanned Expr → Parser (Spanned Expr)} (here : cursor.current? = some token)
    (found : deeper.suffix? token = some link) (receiver : Spanned Expr) :
    (link receiver).Yields cursor fun tokens tree height _ =>
      Suffixed receiver tokens tree height := by
  unfold Level.suffix? at found
  split at found
  · cases found
    exact .pass here fun dot _ _ => sound.dotSuffix receiver dot
  · cases found
    exact .pass here fun start _ _ => sound.indexSuffix receiver start
  · cases found

theorem suffixLink (sound : deeper.Sound) {link : Spanned Expr → Parser (Spanned Expr)}
    (found : cursor.current?.bind deeper.suffix? = some link) {passed : Tokens}
    {receiver : Spanned Expr} {height : Nat} (derived : Derives .suffixed passed receiver height) :
    (link receiver).Yields cursor fun tokens tree more _ =>
      Derives .suffixed (passed ++ tokens) tree (height + 1 + more) := by
  obtain ⟨token, here, found⟩ := Option.bind_eq_some_iff.mp found
  exact (sound.suffix? here found receiver).mono fun _ _ _ _ holds => holds _ _ derived

/-- An operand without a suffix. -/
theorem unsuffixed (sound : deeper.Sound) :
    deeper.primary.Yields cursor (Derives.Meaning .suffixed) :=
  sound.primary.mono fun _ _ _ _ derived => .operand derived

theorem suffixed (sound : deeper.Sound) :
    deeper.suffixed.Yields cursor (Derives.Meaning .suffixed) :=
  (Yields.chain sound.unsuffixed fun _ _ _ _ _ derived found => sound.suffixLink found derived).mono
    fun _ _ _ _ holds => holds.1

/-! ### Operators -/

theorem operand (sound : deeper.Sound) (operator : UnaryOperator) (first : Spanned Token)
    (others : Tokens) (spelled : (first :: others).map Spanned.node = operator.tokens) :
    (deeper.operand operator first.span).Yields cursor fun tokens tree height _ =>
      Derives .signed (first :: (others ++ tokens)) tree height := by
  have inner : (Parser.nested deeper.signed).Yields cursor fun tokens operand height _ =>
      Derives .signed (first :: (others ++ tokens))
        ⟨.unary operator operand, first.span.merge operand.span⟩ height :=
    .nested (sound.signed cursor) fun _ _ _ _ derived =>
      .unary operator first others spelled derived
  exact .last inner fun _ _ _ _ derived => derived

theorem leastDigits? {cursor : Cursor} :
    leastDigits?.Yields cursor fun tokens found height _ =>
      height = 0 ∧ match found with
        | none => tokens = []
        | some span => tokens = [⟨.int leastMagnitude, span⟩] := by
  refine .current ?_
  split
  · next here =>
    refine .second ?_
    split
    · exact .pure ⟨rfl, rfl⟩
    · exact .pure ⟨rfl, rfl⟩
    · exact .pass here fun span _ _ => .pure ⟨rfl, rfl⟩
  · exact .pure ⟨rfl, rfl⟩

theorem signedBody (sound : deeper.Sound) :
    deeper.signedBody.Yields cursor (Derives.Meaning .signed) := by
  refine .current ?_
  split
  · next here =>
    refine .pass here fun sign _ _ => .bind leastDigits? fun tokens found height _ _ holds => ?_
    rcases found with _ | span
    · obtain ⟨rfl, rfl⟩ := holds
      simpa using sound.operand .negate ⟨.symbol .minus, sign⟩ [] rfl
    · obtain ⟨rfl, rfl⟩ := holds
      exact .pure (.least sign span)
  · next here =>
    exact .pass here fun sign _ _ => sound.operand .dereference ⟨_, sign⟩ [] rfl
  · next here => exact .pass here fun sign _ _ => sound.operand .not ⟨_, sign⟩ [] rfl
  · next here =>
    refine .pass here fun sign _ _ => .accept (fun span _ _ => ?_) fun _ => ?_
    · exact sound.operand .mutableReference ⟨_, sign⟩ [⟨_, span⟩] rfl
    · exact sound.operand .reference ⟨_, sign⟩ [] rfl
  · exact sound.suffixed.mono fun _ _ _ _ derived => .unsigned derived

/-- An operator between two operands binds as tightly as stated. -/
theorem infixed?_eq_some {power : Nat} {token : Token} {link : Spanned Expr → Parser (Spanned Expr)}
    (found : deeper.infixed? power token = some link) :
    ∃ operator, BinaryOperator.ofToken? token = some operator ∧ power ≤ operator.power ∧
      link = fun left => do
        let _ ← pass
        let right ← deeper.tier (operator.power + 1)
        return ⟨.binary left operator right, left.span.merge right.span⟩ := by
  unfold infixed? at found
  split at found
  · next operator operates =>
    split at found
    · next tight =>
      cases found
      exact ⟨operator, operates, tight, rfl⟩
    · cases found
  · cases found

/-- The left operand of an operator that follows it binds as tightly as it has to. -/
theorem infixLink (sound : deeper.Sound) {power : Nat} {link : Spanned Expr → Parser (Spanned Expr)}
    (found : cursor.current?.bind (deeper.infixed? power) = some link) {passed : Tokens}
    {left : Spanned Expr} {height : Nat} (operand : Derives.Operand power passed left height cursor) :
    (link left).Yields cursor fun tokens tree more after =>
      Derives.Operand power (passed ++ tokens) tree (height + 1 + more) after := by
  obtain ⟨token, here, found⟩ := Option.bind_eq_some_iff.mp found
  obtain ⟨operator, operates, tight, rfl⟩ := infixed?_eq_some found
  have left := operand.2 operator (by rw [here]; exact operates) tight
  have spelled := BinaryOperator.token_of_ofToken? operates
  subst spelled
  refine .pass here fun span _ _ => ?_
  refine .bind (sound.tier _ _) fun tokens right depth _ _ ⟨right, ended⟩ => .pure ⟨?_, ?_⟩
  · simpa using Derives.binary operator tight span left right
  · intro next follows _
    have looser : next.power ≤ operator.power := Nat.le_of_lt_succ (ended next follows)
    simpa using Derives.binary operator looser span left right

/-- An operand without an operator behind it is on every tier. -/
theorem lone (sound : deeper.Sound) (power : Nat) :
    deeper.signedBody.Yields cursor (Derives.Operand power) :=
  sound.signedBody.mono fun _ _ _ _ derived => ⟨.single _ derived, fun _ _ _ => .single _ derived⟩

theorem tierBody (sound : deeper.Sound) (power : Nat) :
    (deeper.tierBody power).Yields cursor (Derives.Tier power) := by
  refine (Yields.chain (sound.lone power) fun _ _ _ _ _ operand found =>
    sound.infixLink found operand).mono ?_
  rintro tokens tree height after ⟨⟨derived, _⟩, ended⟩
  refine ⟨derived, fun operator follows => ?_⟩
  obtain ⟨token, here, operates⟩ := Option.bind_eq_some_iff.mp follows
  refine Nat.lt_of_not_le fun tight => ?_
  simp [here, infixed?, operates, tight] at ended

/-! ### Blocks -/

theorem assignment (sound : deeper.Sound) (target : Name) :
    (deeper.assignment target).Yields cursor fun tokens tree height _ =>
      ∃ value, tree = ⟨.assign target value, target.span.merge value.span⟩ ∧
        Derives .subexpr tokens value height :=
  .last sound.subexpr fun _ value _ _ derived => ⟨value, rfl, derived⟩

/-- A statement without the semicolon after it. -/
def Statement (tokens : Tokens) (tree : Spanned Expr) (height : Nat) (_ : Cursor) : Prop :=
  (Derives .subexpr tokens tree height ∧
      tokens.head?.map Spanned.node ≠ some (.keyword .let_)) ∨
    ∃ target equal value passed, tokens = target.ident :: ⟨.symbol .equal, equal⟩ :: passed ∧
      tree = ⟨.assign target value, target.span.merge value.span⟩ ∧
      Derives .subexpr passed value height

/-- What stands after the last statement of a block. -/
def BlockEnd (tokens : Tokens) (last : Option (Spanned Expr)) (height : Nat) (after : Cursor) :
    Prop :=
  Derives (.items after.span.start) tokens ([], last) height

/-- The token at a cursor heads what is passed from there. -/
theorem head_of_passes {tokens : Tokens} {after : Cursor} (passes : Cursor.Passes tokens cursor after)
    {token : Token} (other : cursor.current? ≠ some token) :
    tokens.head?.map Spanned.node ≠ some token := by
  have remaining := passes.remaining
  cases tokens with
  | nil => simp
  | cons first rest => simpa [Cursor.current?, remaining] using other

theorem blockExpr (sound : deeper.Sound) (unbound : cursor.current? ≠ some (.keyword .let_)) :
    deeper.blockExpr.Yields cursor (Entry.Meaning Statement BlockEnd) := by
  refine .bind sound.subexpr fun tokens expr height _ passes derived => .current ?_
  have unbound := head_of_passes passes unbound
  split
  · exact .pure (.inl ⟨by simpa using derived, by simpa using unbound⟩)
  · refine .pure ?_
    simpa [Entry.Meaning, BlockEnd] using Derives.value _ unbound derived
  · exact .fail

theorem blockEntry (sound : deeper.Sound) :
    deeper.blockEntry.Yields cursor (Entry.Meaning Statement BlockEnd) := by
  refine .current ?_
  split
  · exact .pure (.nothing _)
  · exact .pure (.nothing _)
  · have bound : (Parser.nested deeper.binding).Yields cursor fun tokens expr height after =>
        Derives (.items after.span.start) tokens ([], some expr) height :=
      .nested (sound.binding cursor) fun _ _ _ _ derived => .bound derived
    exact .last bound fun _ _ _ _ derived => derived
  · next other =>
    refine .nameBefore (fun target equal _ _ => ?_) (sound.blockExpr fun here => other here)
    refine .bind (sound.assignment target) fun tokens tree height _ _ holds => .pure (.inr ?_)
    obtain ⟨value, rfl, derived⟩ := holds
    exact ⟨target, equal, value, tokens, by simp, rfl, by simpa using derived⟩

theorem items_of_sequenced {tokens : Tokens} {statements : List (Spanned Expr)}
    {last : Option (Spanned Expr)} {height : Nat} {after : Cursor}
    (sequenced : Sequenced (.symbol .semicolon) Statement BlockEnd tokens statements last height
      after) : Derives (.items after.span.start) tokens (statements, last) height := by
  induction sequenced with
  | last holds => exact holds
  | more semicolon current holds _ continued =>
    rcases holds with ⟨derived, unbound⟩ | ⟨target, equal, value, passed, rfl, rfl, derived⟩
    · exact .statement semicolon unbound derived continued
    · exact .assign target equal semicolon derived continued

theorem blockItems (sound : deeper.Sound) :
    deeper.blockItems.Yields cursor fun tokens found height after =>
      Derives (.items after.span.start) tokens found height :=
  (Yields.sequence fun _ => sound.blockEntry).mono fun _ _ _ _ => items_of_sequenced

theorem block (sound : deeper.Sound) (start : Span) :
    (deeper.block start).Yields cursor fun tokens tree height _ =>
      Derives .expr (⟨.symbol .leftBrace, start⟩ :: tokens) tree height := by
  refine .bind sound.blockItems fun tokens found height middle _ derived => ?_
  refine .expect fun stop _ passes => .pure ?_
  rw [Cursor.span_of_cons passes.remaining] at derived
  simpa using Derives.block start stop derived

/-- A row of tokens starts where the cursor before it stands. -/
theorem start_of_passes {tokens : Tokens} {after : Cursor}
    (passes : Cursor.Passes tokens cursor after) :
    startBefore after.span.start tokens = cursor.span.start := by
  have remaining := passes.remaining
  have offset := passes.endOffset
  cases tokens with
  | nil => simp_all [startBefore, Cursor.span]
  | cons first rest => simp [startBefore, Cursor.span, remaining]

theorem blockRest (sound : deeper.Sound) :
    deeper.blockRest.Yields cursor fun tokens tree height after =>
      Derives (.rest cursor.lastStop after.span.start) tokens tree height := by
  refine .here (.bind sound.blockItems fun tokens found height middle passes derived => ?_)
  have start := start_of_passes passes
  split
  · refine .pure ?_
    simpa using Derives.lone _ derived
  · next statements last other =>
    refine .lastStop (.pure ?_)
    have several : statements ≠ [] ∨ last = none := by
      cases statements with
      | nil => exact .inr (Option.eq_none_iff_forall_ne_some.mpr fun expr => other expr rfl)
      | cons => exact .inl nofun
    rw [passes.lastStop, ← start]
    simpa using Derives.remainder cursor.lastStop derived several

/-! ### Constructs -/

theorem statedType? (sound : deeper.Sound) :
    deeper.statedType?.Yields cursor (Derives.Meaning .stated) := by
  refine .accept (fun colon _ _ => ?_) fun _ => .pure .unstated
  exact .last sound.subtype fun _ _ _ _ derived => .stated colon derived

/-- An optional word is passed if it is there. -/
theorem marked {β : Type} {word : Keyword} {next : Option Span → Parser β}
    {meaning : Tokens → β → Nat → Cursor → Prop}
    (continued : ∀ found mark middle, Marks word found.isSome mark → Cursor.Passes mark cursor middle →
      (next found).Yields middle fun tokens result height after =>
        meaning (mark ++ tokens) result height after) :
    (accept (.keyword word) >>= next).Yields cursor meaning :=
  .accept (fun span middle passes => continued (some span) [⟨.keyword word, span⟩] middle rfl passes)
    fun _ => continued none [] cursor rfl (Cursor.passes_nil cursor)

/-- A binding whose body has the meaning stated, which may depend on where the token before the body
stops. -/
inductive Bound (inner : Nat → Tokens → Spanned Expr → Nat → Prop) :
    Tokens → Spanned Expr → Nat → Prop
  | mk (start equal semicolon : Span) (isMutable : Bool) (name : Name)
      {mark statedTokens valueTokens bodyTokens : Tokens} {type : Option (Spanned Ty)}
      {value body : Spanned Expr} {first second third : Nat} (isMarked : Marks .mut_ isMutable mark)
      (derivedType : Derives .stated statedTokens type first)
      (derivedValue : Derives .subexpr valueTokens value second)
      (holds : inner semicolon.stop bodyTokens body third) :
      Bound inner
        (⟨.keyword .let_, start⟩ :: (mark ++ name.ident :: (statedTokens ++
          ⟨.symbol .equal, equal⟩ :: (valueTokens ++ ⟨.symbol .semicolon, semicolon⟩ ::
          bodyTokens))))
        ⟨.binding isMutable name type value body, start.merge body.span⟩
        (max first (max second third))

theorem bindingOver (sound : deeper.Sound) {body : Parser (Spanned Expr)}
    (inner : Span → Nat → Tokens → Spanned Expr → Nat → Prop)
    (yields : ∀ middle, body.Yields middle fun tokens tree height after =>
      inner after.span middle.lastStop tokens tree height) :
    (deeper.bindingOver body).Yields cursor fun tokens tree height after =>
      Bound (inner after.span) tokens tree height := by
  refine .expect fun start _ _ => marked fun found mark _ isMarked _ => ?_
  refine .name fun name _ _ => ?_
  refine .bind sound.statedType? fun statedTokens type first _ _ derivedType => ?_
  refine .expect fun equal _ _ => ?_
  refine .bind sound.subexpr fun valueTokens value second _ _ derivedValue => ?_
  refine .expect fun semicolon middle passes => ?_
  refine .bind (yields middle) fun bodyTokens body third last _ holds => .note (.pure ?_)
  rw [show middle.lastStop = semicolon.stop from passes.lastStop] at holds
  simpa using Bound.mk start equal semicolon found.isSome name isMarked derivedType derivedValue
    holds

theorem bindingBody (sound : deeper.Sound) :
    deeper.bindingBody.Yields cursor fun tokens tree height after =>
      Derives (.binding after.span.start) tokens tree height := by
  refine (sound.bindingOver (fun span before => Derives (.rest before span.start)) fun middle =>
    sound.blockRest).mono fun tokens tree height after holds => ?_
  obtain ⟨start, equal, semicolon, isMutable, name, isMarked, type, value, body⟩ := holds
  exact .bindingRest start equal semicolon isMutable name isMarked type value body

theorem bindingExpr (sound : deeper.Sound) :
    (deeper.bindingOver deeper.subexpr).Yields cursor (Derives.Meaning .expr) := by
  refine (sound.bindingOver (fun _ _ => Derives .subexpr) fun middle =>
    sound.subexpr).mono fun tokens tree height after holds => ?_
  obtain ⟨start, equal, semicolon, isMutable, name, isMarked, type, value, body⟩ := holds
  exact .binding start equal semicolon isMutable name isMarked type value body

theorem conditional (sound : deeper.Sound) (start : Span) :
    (deeper.conditional start).Yields cursor fun tokens tree height _ =>
      Derives .expr (⟨.keyword .if_, start⟩ :: tokens) tree height := by
  refine .bind sound.subexpr fun _ condition first _ _ derivedCondition => ?_
  refine .expect fun middle _ _ => ?_
  refine .bind sound.subexpr fun _ yes second _ _ derivedYes => ?_
  refine .expect fun last _ _ => ?_
  refine .bind sound.subexpr fun _ no third _ _ derivedNo => .pure ?_
  simpa using Derives.conditional start middle last derivedCondition derivedYes derivedNo

theorem pattern : pattern.Yields cursor fun tokens tree height _ =>
    height = 0 ∧ Pattern.Derives tokens tree := by
  refine .current ?_
  split
  · next digits here =>
    exact .literalValue fun value read => .pass here fun span _ _ => .pure ⟨rfl, .int read span⟩
  · next digits here =>
    exact .literalValue fun value read => .pass here fun span _ _ => .pure ⟨rfl, .float read span⟩
  · next content here => exact .pass here fun span _ _ => .pure ⟨rfl, .string content span⟩
  · next here => exact .pass here fun span _ _ => .pure ⟨rfl, .true span⟩
  · next here => exact .pass here fun span _ _ => .pure ⟨rfl, .false span⟩
  · next here => exact .pass here fun span _ _ => .pure ⟨rfl, .wildcard span⟩
  · next text here =>
    refine .pass here fun span _ _ => .accept (fun colons _ _ => ?_) fun _ => ?_
    · refine .name fun variant _ _ => .accept (fun start _ _ => ?_) fun _ => ?_
      · refine .bind (.list fun _ => .ident) fun _ found height _ _ ⟨passed, same, row⟩ => ?_
        obtain ⟨commas, rfl⟩ := Row.names row
        refine .pure ⟨rfl, ?_⟩
        simpa [same] using Pattern.Derives.variantOf ⟨text, span⟩ variant colons start found.2 commas
      · exact .pure ⟨rfl, .variant ⟨text, span⟩ variant colons⟩
    · exact .pure ⟨rfl, .bind ⟨text, span⟩⟩
  · exact .fail

theorem matchArm (sound : deeper.Sound) :
    deeper.matchArm.Yields cursor (Derives.Meaning .arm) := by
  refine .bind pattern fun _ pattern low _ _ ⟨flat, derivedPattern⟩ => ?_
  refine .expect fun arrow _ _ => ?_
  refine .bind sound.subexpr fun _ body height _ _ derivedBody => .pure ?_
  simpa [Derives.Meaning, flat] using Derives.arm arrow derivedPattern derivedBody

theorem matching (sound : deeper.Sound) (start : Span) :
    (deeper.matching start).Yields cursor fun tokens tree height _ =>
      Derives .expr (⟨.keyword .match_, start⟩ :: tokens) tree height := by
  refine .bind sound.subexpr fun _ subject first _ _ derived => .expect fun opened _ _ => ?_
  refine .bind (.list fun _ => sound.matchArm) fun _ found height _ _ ⟨passed, same, row⟩ => ?_
  obtain ⟨parts, commas, values, rfl, each⟩ := row
  refine .pure ?_
  simpa [same, values] using Derives.matching start opened found.2 derived parts commas each

theorem braced (sound : deeper.Sound) :
    deeper.braced.Yields cursor fun tokens found height _ =>
      ∃ opened passed, tokens =
        ⟨.symbol .leftBrace, opened⟩ :: (passed ++ [⟨.symbol .rightBrace, found.2⟩]) ∧
        Derives .subexpr passed found.1 height := by
  refine .expect fun opened _ _ => ?_
  refine .bind sound.subexpr fun passed body height _ _ derived => ?_
  exact .expect fun stop _ _ => .pure ⟨opened, passed, by simp, by simpa using derived⟩

theorem whileLoop (sound : deeper.Sound) (start : Span) :
    (deeper.whileLoop start).Yields cursor fun tokens tree height _ =>
      Derives .expr (⟨.keyword .while_, start⟩ :: tokens) tree height := by
  refine .bind sound.subexpr fun _ condition first _ _ derivedCondition => ?_
  refine .bind sound.braced fun _ found height _ _ ⟨opened, passed, same, derived⟩ => .pure ?_
  simpa [same] using Derives.whileLoop start opened found.2 derivedCondition derived

theorem forLoop (sound : deeper.Sound) (start : Span) :
    (deeper.forLoop start).Yields cursor fun tokens tree height _ =>
      Derives .expr (⟨.keyword .for_, start⟩ :: tokens) tree height := by
  refine .name fun bound _ _ => .expect fun inside _ _ => ?_
  refine .bind sound.subexpr fun _ range first _ _ derivedRange => ?_
  refine .bind sound.braced fun _ found height _ _ ⟨opened, passed, same, derived⟩ => .pure ?_
  simpa [same] using Derives.forLoop start inside opened found.2 bound derivedRange derived

theorem exprBody (sound : deeper.Sound) :
    deeper.exprBody.Yields cursor (Derives.Meaning .expr) := by
  refine .current ?_
  split
  · next here => exact .pass here fun start _ _ => sound.conditional start
  · exact sound.bindingExpr
  · next here => exact .pass here fun start _ _ => sound.matching start
  · next here => exact .pass here fun start _ _ => sound.whileLoop start
  · next here => exact .pass here fun start _ _ => sound.forLoop start
  · next here => exact .pass here fun start _ _ => sound.block start
  · exact (sound.tierBody 1).mono fun _ _ _ _ holds => .operators holds.1

/-! ### Types -/

theorem arrayLength : arrayLength.Yields cursor fun tokens length height _ =>
    ∃ digits span, tokens = [⟨.int digits, span⟩] ∧ readUInt64? digits = some length ∧
      height = 0 := by
  refine .current ?_
  split
  · next digits here =>
    refine .pass here fun span _ _ => ?_
    split
    · next length read => exact .pure ⟨digits, span, rfl, read, rfl⟩
    · exact .failWith
  · exact .fail

theorem referenceType (sound : deeper.Sound) (start : Span) :
    (deeper.referenceType start).Yields cursor fun tokens tree height _ =>
      Derives .type (⟨.symbol .ampersand, start⟩ :: tokens) tree height := by
  refine marked fun found mark _ isMarked _ => ?_
  refine .bind sound.subtype fun _ target height _ _ derived => .pure ?_
  simpa using Derives.reference start found.isSome isMarked derived

theorem arrayType (sound : deeper.Sound) (start : Span) :
    (deeper.arrayType start).Yields cursor fun tokens tree height _ =>
      Derives .type (⟨.symbol .leftBracket, start⟩ :: tokens) tree height := by
  refine .bind sound.subtype fun _ element height _ _ derived => .expect fun semicolon _ _ => ?_
  refine .bind arrayLength fun _ length _ _ _ ⟨digits, span, same, read, flat⟩ => ?_
  refine .expect fun stop _ _ => .pure ?_
  simpa [same, flat] using Derives.arrayType start semicolon span stop read derived

theorem primitiveType (sound : deeper.Sound) (base : Primitive) (start : Span) :
    (deeper.primitiveType base start).Yields cursor fun tokens tree height _ =>
      Derives .type (⟨.keyword base.word, start⟩ :: tokens) tree height := by
  unfold Level.primitiveType
  split
  · next refinable =>
    refine .accept (fun opened _ _ => ?_) fun _ => .pure (.primitive base start)
    refine .bind (sound.exprs .rightBrace) fun _ found height _ _ ⟨passed, same, row⟩ => ?_
    obtain ⟨parts, commas, values, rfl, each⟩ := row
    refine .note (.pure ?_)
    simpa [same, values] using
      Derives.refined base refinable start opened found.2 parts commas each
  · exact .pure (.primitive base start)

theorem typeBody (sound : deeper.Sound) :
    deeper.typeBody.Yields cursor (Derives.Meaning .type) := by
  refine .current ?_
  split
  · next here => exact .pass here fun start _ _ => sound.referenceType start
  · next here => exact .pass here fun start _ _ => sound.arrayType start
  · next here =>
    exact .pass here fun start _ _ => .expect fun stop _ _ => .pure (.unitType start stop)
  · next word here =>
    split
    · next base found =>
      have spelled := Primitive.word_of_ofWord? found
      subst spelled
      exact .pass here fun start _ _ => sound.primitiveType base start
    · exact .fail
  · next text here => exact .pass here fun span _ _ => .pure (.named ⟨text, span⟩)
  · exact .fail

/-! ### All levels -/

theorem above (sound : deeper.Sound) : deeper.above.Sound where
  expr _ := sound.exprBody
  type _ := sound.typeBody
  signed _ := sound.signedBody
  binding _ := sound.bindingBody
  tier power _ := sound.tierBody power

end Sound

theorem sound_tower (count : Nat) : (tower count).Sound := by
  induction count with
  | zero => exact sound_ground
  | succ count deeper => exact deeper.above

end Level

end ContractSyntax
