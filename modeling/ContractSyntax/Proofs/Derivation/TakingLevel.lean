/-
**What the parsers of a level take, given what the level below takes.**

One lemma for each way in which a phrase can be written. The parts that lie a level deeper are
assumed to be taken; what is needed of the tokens after the phrase, and of those at the beginning of
its parts, is what the parser looks at before it chooses.

* `Level.suffixing_index`, `Level.operating_binary` and their like: one link more of a chain;
* `Level.takesRest`: the rest of a block after a binding.
-/

import ContractSyntax.Grammar.Expr
import ContractSyntax.Proofs.Derivation.Opening
import ContractSyntax.Proofs.Derivation.TakingRepetition

namespace ContractSyntax

open ContractSyntax.Parser

namespace Level

variable {deeper : Level} {rest : Tokens} {room : Nat}

/-! ### Operands -/

theorem takes_arguments? {tokens : Tokens} {parts : List (Part (Spanned Expr))} {start stop : Span}
    (row : Commas (parts.map Part.tokens) tokens)
    (each : ∀ part ∈ parts, Takes.TakesPart .rightParen deeper.subexpr room part) :
    deeper.arguments?.Takes
      (⟨.symbol .leftParen, start⟩ :: (tokens ++ [⟨.symbol .rightParen, stop⟩])) rest
      (some (parts.map Part.value, stop)) (highest (parts.map Part.height)) room :=
  .accept (.last (.list (by decide) row each) .pure)

theorem takes_arguments?_none (ends : rest.head?.map Spanned.node ≠ some (.symbol .leftParen)) :
    deeper.arguments?.Takes [] rest none 0 room :=
  .acceptNone ends .pure

theorem takes_int {digits : String} {value : Int64} (read : readInt64? digits = some value)
    (span : Span) : deeper.primary.Takes [⟨.int digits, span⟩] rest ⟨.int value, span⟩ 0 room :=
  .current (.literalValue read (.last .passed .pure))

theorem takes_float {digits : String} {value : Binary64} (read : readBinary64? digits = some value)
    (span : Span) :
    deeper.primary.Takes [⟨.float digits, span⟩] rest ⟨.float value, span⟩ 0 room :=
  .current (.literalValue read (.last .passed .pure))

theorem takes_string (content : String) (span : Span) :
    deeper.primary.Takes [⟨.string content, span⟩] rest ⟨.string content, span⟩ 0 room :=
  .current (.last .passed .pure)

theorem takes_paren (start stop : Span) {tokens : Tokens} {inner : Spanned Expr} {height : Nat}
    (opens : Opens Token.opensExpr tokens)
    (taken : deeper.subexpr.Takes tokens (⟨.symbol .rightParen, stop⟩ :: rest) inner height room) :
    deeper.primary.Takes (⟨.symbol .leftParen, start⟩ :: (tokens ++ [⟨.symbol .rightParen, stop⟩]))
      rest ⟨.paren inner, start.merge stop⟩ height room := by
  refine .current (.pass (.acceptNone ?_ ?_))
  · rw [List.append_assoc]
    exact opens.head rfl
  · exact .lead taken (.expect .pure)

theorem takes_array (start stop : Span) {tokens : Tokens} {parts : List (Part (Spanned Expr))}
    (row : Commas (parts.map Part.tokens) tokens)
    (each : ∀ part ∈ parts, Takes.TakesPart .rightBracket deeper.subexpr room part) :
    deeper.primary.Takes
      (⟨.symbol .leftBracket, start⟩ :: (tokens ++ [⟨.symbol .rightBracket, stop⟩])) rest
      ⟨.array (parts.map Part.value), start.merge stop⟩ (highest (parts.map Part.height)) room :=
  .current (.pass (.last (.list (by decide) row each) .pure))

theorem takes_fieldValue {tokens : Tokens} {name : Name} {colon : Span} {value : Spanned Expr}
    {height : Nat} (taken : deeper.subexpr.Takes tokens rest value height room) :
    deeper.fieldValue.Takes (name.ident :: ⟨.symbol .colon, colon⟩ :: tokens) rest (.mk name value)
      height room :=
  .name (.expect (.last taken .pure))

theorem takes_construct (start opened stop : Span) (struct : Name) {tokens : Tokens}
    {parts : List (Part FieldValue)} (row : Commas (parts.map Part.tokens) tokens)
    (each : ∀ part ∈ parts, Takes.TakesPart .rightBrace deeper.fieldValue room part) :
    deeper.primary.Takes
      (⟨.keyword .new, start⟩ :: struct.ident :: ⟨.symbol .leftBrace, opened⟩ ::
        (tokens ++ [⟨.symbol .rightBrace, stop⟩])) rest
      ⟨.construct struct (parts.map Part.value), start.merge stop⟩
      (highest (parts.map Part.height)) room :=
  .current (.pass (.name (.expect (.last (.list (by decide) row each) .pure))))

theorem takes_var (name : Name) (ends : EndsName rest) :
    deeper.primary.Takes [name.ident] rest ⟨.var name.node, name.span⟩ 0 room :=
  .current (.pass (.last (takes_arguments?_none ends.1) (.acceptNone ends.2 .pure)))

theorem takes_call (function : Name) (start stop : Span) {tokens : Tokens}
    {parts : List (Part (Spanned Expr))} (row : Commas (parts.map Part.tokens) tokens)
    (each : ∀ part ∈ parts, Takes.TakesPart .rightParen deeper.subexpr room part) :
    deeper.primary.Takes
      (function.ident :: ⟨.symbol .leftParen, start⟩ ::
        (tokens ++ [⟨.symbol .rightParen, stop⟩])) rest
      ⟨.call function (parts.map Part.value), function.span.merge stop⟩
      (highest (parts.map Part.height)) room :=
  .current (.pass (.last (takes_arguments? row each) .pure))

theorem takes_variant (enumeration variant : Name) (colons : Span) (ends : EndsName rest) :
    deeper.primary.Takes [enumeration.ident, ⟨.symbol .colonColon, colons⟩, variant.ident] rest
      ⟨.variant enumeration variant none, enumeration.span.merge variant.span⟩ 0 room := by
  refine .current (.pass (.flat (takes_arguments?_none (by nofun)) (.accept ?_)))
  exact .name (.last (takes_arguments?_none ends.1) .pure)

theorem takes_variantOf (enumeration variant : Name) (colons start stop : Span) {tokens : Tokens}
    {parts : List (Part (Spanned Expr))} (row : Commas (parts.map Part.tokens) tokens)
    (each : ∀ part ∈ parts, Takes.TakesPart .rightParen deeper.subexpr room part) :
    deeper.primary.Takes
      (enumeration.ident :: ⟨.symbol .colonColon, colons⟩ :: variant.ident ::
        ⟨.symbol .leftParen, start⟩ :: (tokens ++ [⟨.symbol .rightParen, stop⟩])) rest
      ⟨.variant enumeration variant (some (parts.map Part.value)), enumeration.span.merge stop⟩
      (highest (parts.map Part.height)) room := by
  refine .current (.pass (.flat (takes_arguments?_none (by nofun)) (.accept ?_)))
  exact .name (.last (takes_arguments? row each) .pure)

/-! ### Suffixes -/

/-- An operand with its suffixes so far, after which more may come. -/
abbrev Suffixing (deeper : Level) (tokens rest : Tokens) (tree : Spanned Expr)
    (height room : Nat) : Prop :=
  Chaining deeper.primary deeper.suffix? tokens rest tree height room

theorem suffixing_state {moment : Moment} {dot stop : Span} {tokens : Tokens}
    {receiver : Spanned Expr} {height : Nat}
    (chained : deeper.Suffixing tokens
      ([⟨.symbol .dot, dot⟩, ⟨.keyword moment.word, stop⟩] ++ rest) receiver height room) :
    deeper.Suffixing (tokens ++ [⟨.symbol .dot, dot⟩, ⟨.keyword moment.word, stop⟩]) rest
      ⟨.state receiver moment, receiver.span.merge stop⟩ (height + 1) room := by
  show deeper.Suffixing _ _ _ (height + 1 + 0) _
  refine chained.link rfl fun _ => ?_
  refine .pass ?_
  cases moment with
  | pre => exact .current (.last .passed .pure)
  | post => exact .current (.last .passed .pure)

theorem suffixing_member {name : Name} {dot : Span} {tokens : Tokens} {receiver : Spanned Expr}
    {height : Nat} (ends : EndsName rest)
    (chained : deeper.Suffixing tokens ([⟨.symbol .dot, dot⟩, name.ident] ++ rest) receiver height
      room) :
    deeper.Suffixing (tokens ++ [⟨.symbol .dot, dot⟩, name.ident]) rest
      ⟨.field receiver name, receiver.span.merge name.span⟩ (height + 1) room := by
  show deeper.Suffixing _ _ _ (height + 1 + 0) _
  refine chained.link rfl fun _ => ?_
  refine .pass (.current (.pass ?_))
  exact .last (takes_arguments?_none ends.1) .pure

theorem suffixing_methodCall {method : Name} {dot start stop : Span} {before tokens : Tokens}
    {receiver : Spanned Expr} {height : Nat} {parts : List (Part (Spanned Expr))}
    (chained : deeper.Suffixing before
      (⟨.symbol .dot, dot⟩ :: method.ident :: ⟨.symbol .leftParen, start⟩ ::
        (tokens ++ [⟨.symbol .rightParen, stop⟩]) ++ rest) receiver height room)
    (row : Commas (parts.map Part.tokens) tokens)
    (each : ∀ smaller, smaller ≤ room → ∀ part ∈ parts,
      Takes.TakesPart .rightParen deeper.subexpr smaller part) :
    deeper.Suffixing
      (before ++ ⟨.symbol .dot, dot⟩ :: method.ident :: ⟨.symbol .leftParen, start⟩ ::
        (tokens ++ [⟨.symbol .rightParen, stop⟩])) rest
      ⟨.methodCall receiver method (parts.map Part.value), receiver.span.merge stop⟩
      (height + 1 + highest (parts.map Part.height)) room := by
  refine chained.link rfl fun _ => ?_
  refine .pass (.current (.pass ?_))
  exact .last (takes_arguments? row (each _ (Nat.sub_le _ _))) .pure

theorem suffixing_index {start stop : Span} {before tokens : Tokens}
    {receiver position : Spanned Expr} {height depth : Nat}
    (chained : deeper.Suffixing before
      (⟨.symbol .leftBracket, start⟩ :: (tokens ++ [⟨.symbol .rightBracket, stop⟩]) ++ rest)
      receiver height room)
    (taken : ∀ smaller, smaller ≤ room →
      deeper.subexpr.Takes tokens (⟨.symbol .rightBracket, stop⟩ :: rest) position depth smaller) :
    deeper.Suffixing
      (before ++ ⟨.symbol .leftBracket, start⟩ :: (tokens ++ [⟨.symbol .rightBracket, stop⟩])) rest
      ⟨.index receiver position, receiver.span.merge stop⟩ (height + 1 + depth) room := by
  refine chained.link rfl fun _ => ?_
  refine .pass ?_
  exact .lead (taken _ (Nat.sub_le _ _)) (.expect .pure)

/-- An operand ends where no suffix follows. -/
theorem suffix?_eq_none {token : Token} (ends : token.isSuffix = false) :
    deeper.suffix? token = none := by
  unfold suffix?
  split
  · cases ends
  · cases ends
  · rfl

theorem takes_suffixed {tokens : Tokens} {tree : Spanned Expr} {height : Nat}
    (ends : EndsOperand rest) (chained : deeper.Suffixing tokens rest tree height room) :
    deeper.suffixed.Takes tokens rest tree height room := by
  refine chained.takes ?_
  cases here : rest.head?.map Spanned.node with
  | none => rfl
  | some token => exact suffix?_eq_none (ends token here)

/-! ### Operators -/

theorem takes_unsigned {tokens : Tokens} {tree : Spanned Expr} {height : Nat}
    (opens : Opens Token.opensOperand tokens)
    (taken : deeper.suffixed.Takes tokens rest tree height room) :
    deeper.signedBody.Takes tokens rest tree height room := by
  obtain ⟨⟨token, span⟩, others, rfl, first, _⟩ := opens
  refine .current ?_
  simp only [List.cons_append, List.head?_cons, Option.map_some]
  split
  case h_5 => exact taken
  all_goals next same => cases same; cases first

theorem takes_least (sign span : Span) (ends : EndsOperand rest) :
    deeper.signedBody.Takes [⟨.symbol .minus, sign⟩, ⟨.int "9223372036854775808", span⟩] rest
      ⟨.int Int64.minValue, sign.merge span⟩ 0 room := by
  have digits : leastDigits?.Takes [⟨.int leastMagnitude, span⟩] rest (some span) 0 room := by
    refine .current ?_
    simp only [List.cons_append, List.head?_cons, Option.map_some, if_true]
    refine .second ?_
    simp only [List.cons_append, List.nil_append, List.tail_cons]
    split
    · next here => exact absurd (ends _ here) nofun
    · next here => exact absurd (ends _ here) nofun
    · exact .last .passed .pure
  exact .current (.pass (.last digits .pure))

/-- The digits after a sign are not those of the least integer if they are in range by themselves. -/
theorem takes_leastDigits?_none {tokens : Tokens} (opens : Opens Token.opensSigned tokens) :
    leastDigits?.Takes [] (tokens ++ rest) none 0 room := by
  refine .current ?_
  rw [List.nil_append, if_neg (opens.head (by decide +kernel))]
  exact .pure

theorem takes_unary (operator : UnaryOperator) {first : Spanned Token} {others tokens : Tokens}
    (spelled : (first :: others).map Spanned.node = operator.tokens) {operand : Spanned Expr}
    {height : Nat} (opens : Opens Token.opensSigned tokens)
    (taken : (Parser.nested deeper.signed).Takes tokens rest operand height room) :
    deeper.signedBody.Takes (first :: (others ++ tokens)) rest
      ⟨.unary operator operand, first.span.merge operand.span⟩ height room := by
  obtain ⟨node, start⟩ := first
  cases operator with
  | negate =>
    obtain ⟨rfl, alone⟩ := List.cons.inj spelled
    obtain rfl := List.map_eq_nil_iff.mp alone
    exact .current (.pass (.flat (takes_leastDigits?_none opens) (.last taken .pure)))
  | not =>
    obtain ⟨rfl, alone⟩ := List.cons.inj spelled
    obtain rfl := List.map_eq_nil_iff.mp alone
    exact .current (.pass (.last taken .pure))
  | reference =>
    obtain ⟨rfl, alone⟩ := List.cons.inj spelled
    obtain rfl := List.map_eq_nil_iff.mp alone
    exact .current (.pass (.acceptNone (opens.head rfl) (.last taken .pure)))
  | mutableReference =>
    obtain ⟨rfl, marked⟩ := List.cons.inj spelled
    obtain ⟨⟨node, span⟩, rfl, rfl⟩ := List.map_eq_singleton_iff.mp marked
    exact .current (.pass (.accept (.last taken .pure)))
  | dereference =>
    obtain ⟨rfl, alone⟩ := List.cons.inj spelled
    obtain rfl := List.map_eq_nil_iff.mp alone
    exact .current (.pass (.last taken .pure))

/-- Operands with infix operators between them so far, after which more may come. -/
abbrev Operating (deeper : Level) (power : Nat) (tokens rest : Tokens) (tree : Spanned Expr)
    (height room : Nat) : Prop :=
  Chaining deeper.signedBody (deeper.infixed? power) tokens rest tree height room

theorem infixed?_token {power : Nat} {operator : BinaryOperator} (tight : power ≤ operator.power) :
    deeper.infixed? power operator.token = some fun left => do
      let _ ← pass
      let right ← deeper.tier (operator.power + 1)
      return ⟨.binary left operator right, left.span.merge right.span⟩ := by
  simp only [infixed?, BinaryOperator.ofToken?_token, if_pos tight]

theorem operating_binary {operator : BinaryOperator} {power : Nat} (tight : power ≤ operator.power)
    {span : Span} {before after : Tokens} {left right : Spanned Expr} {height depth : Nat}
    (chained : deeper.Operating power before (⟨operator.token, span⟩ :: after ++ rest) left height
      room)
    (taken : height < room →
      (deeper.tier (operator.power + 1)).Takes after rest right depth (room - (height + 1))) :
    deeper.Operating power (before ++ ⟨operator.token, span⟩ :: after) rest
      ⟨.binary left operator right, left.span.merge right.span⟩ (height + 1 + depth) room :=
  chained.link (infixed?_token tight) fun more => .pass (.last (taken more) .pure)

/-- Operators end where none follows that binds as tightly. -/
theorem takes_tierBody {power : Nat} {tokens : Tokens} {tree : Spanned Expr} {height : Nat}
    (ends : ∀ operator, (rest.head?.map Spanned.node).bind BinaryOperator.ofToken? = some operator →
      operator.power < power)
    (chained : deeper.Operating power tokens rest tree height room) :
    (deeper.tierBody power).Takes tokens rest tree height room := by
  refine chained.takes ?_
  cases here : rest.head?.map Spanned.node with
  | none => rfl
  | some token =>
    rw [here] at ends
    show deeper.infixed? power token = none
    unfold infixed?
    split
    · next operator found => exact if_neg (Nat.not_le_of_lt (ends operator found))
    · rfl

/-! ### Blocks -/

theorem takes_blockExpr {tokens : Tokens} {tree : Spanned Expr} {height : Nat}
    {token : Token} {entry : Entry (Spanned Expr) (Option (Spanned Expr))}
    (next : rest.head?.map Spanned.node = some token)
    (taken : deeper.subexpr.Takes tokens rest tree height room)
    (ends : (token = .symbol .semicolon ∧ entry = .item tree) ∨
      (token = .symbol .rightBrace ∧ entry = .last (some tree))) :
    deeper.blockExpr.Takes tokens rest entry height room := by
  refine .last taken (.current ?_)
  rw [List.nil_append, next]
  rcases ends with ⟨rfl, rfl⟩ | ⟨rfl, rfl⟩
  · exact .pure
  · exact .pure

/-- An expression in a block that is no binding is read as such. -/
theorem takes_blockEntry_expr {tokens : Tokens} {height : Nat}
    {entry : Entry (Spanned Expr) (Option (Spanned Expr))} (opens : Opens Token.opensExpr tokens)
    (unbound : tokens.head?.map Spanned.node ≠ some (.keyword .let_))
    (other : rest.head?.map Spanned.node ≠ some (.symbol .equal))
    (taken : deeper.blockExpr.Takes tokens rest entry height room) :
    deeper.blockEntry.Takes tokens rest entry height room := by
  have named (text : String) (first : (tokens ++ rest).head?.map Spanned.node = some (.ident text)) :
      (tokens ++ rest).tail.head?.map Spanned.node ≠ some (.symbol .equal) :=
    opens.second_ne rfl other first
  obtain ⟨⟨token, span⟩, others, rfl, first, _⟩ := opens
  refine .current ?_
  simp only [List.cons_append, List.head?_cons, Option.map_some]
  split
  · next same => cases same
  · next same => cases same; cases first
  · next same => exact absurd same unbound
  · exact .nameBeforeNone named taken

theorem takes_blockItems_nothing {next : Nat} (closes : ClosesBlock next rest) :
    deeper.blockItems.Takes [] rest ([], none) 0 room := by
  obtain ⟨stop, others, rfl⟩ := closes
  exact .sequenceLast (.current .pure)

theorem takes_blockItems_value {next : Nat} {tokens : Tokens} {tree : Spanned Expr} {height : Nat}
    (closes : ClosesBlock next rest) (opens : Opens Token.opensExpr tokens)
    (unbound : tokens.head?.map Spanned.node ≠ some (.keyword .let_))
    (taken : deeper.subexpr.Takes tokens rest tree height room) :
    deeper.blockItems.Takes tokens rest ([], some tree) height room := by
  obtain ⟨stop, others, rfl⟩ := closes
  refine .sequenceLast (takes_blockEntry_expr opens unbound nofun ?_)
  exact takes_blockExpr rfl taken (.inr ⟨rfl, rfl⟩)

theorem takes_blockItems_bound {tokens : Tokens} {tree : Spanned Expr} {height : Nat}
    (first : tokens.head?.map Spanned.node = some (.keyword .let_))
    (taken : (Parser.nested deeper.binding).Takes tokens rest tree height room) :
    deeper.blockItems.Takes tokens rest ([], some tree) height room := by
  obtain ⟨⟨token, span⟩, found, rfl⟩ := Option.map_eq_some_iff.mp first
  obtain ⟨others, rfl⟩ := List.head?_eq_some_iff.mp found
  exact .sequenceLast (.current (.last taken .pure))

theorem takes_blockItems_statement {semicolon : Span} {tokens others : Tokens}
    {tree : Spanned Expr} {statements : List (Spanned Expr)} {last : Option (Spanned Expr)}
    {height depth : Nat} (opens : Opens Token.opensExpr tokens)
    (unbound : tokens.head?.map Spanned.node ≠ some (.keyword .let_))
    (taken : deeper.subexpr.Takes tokens (⟨.symbol .semicolon, semicolon⟩ :: others ++ rest) tree
      height room)
    (continued : deeper.blockItems.Takes others rest (statements, last) depth room) :
    deeper.blockItems.Takes (tokens ++ ⟨.symbol .semicolon, semicolon⟩ :: others) rest
      (tree :: statements, last) (max height depth) room := by
  refine .sequenceItem (takes_blockEntry_expr opens unbound nofun ?_) continued
  exact takes_blockExpr rfl taken (.inl ⟨rfl, rfl⟩)

theorem takes_blockItems_assign {target : Name} {equal semicolon : Span} {tokens others : Tokens}
    {value : Spanned Expr} {statements : List (Spanned Expr)} {last : Option (Spanned Expr)}
    {height depth : Nat}
    (taken : deeper.subexpr.Takes tokens (⟨.symbol .semicolon, semicolon⟩ :: others ++ rest) value
      height room)
    (continued : deeper.blockItems.Takes others rest (statements, last) depth room) :
    deeper.blockItems.Takes
      (target.ident :: ⟨.symbol .equal, equal⟩ ::
        (tokens ++ ⟨.symbol .semicolon, semicolon⟩ :: others)) rest
      (⟨.assign target value, target.span.merge value.span⟩ :: statements, last)
      (max height depth) room := by
  have entry : deeper.blockEntry.Takes (target.ident :: ⟨.symbol .equal, equal⟩ :: tokens)
      (⟨.symbol .semicolon, semicolon⟩ :: others ++ rest)
      (.item ⟨.assign target value, target.span.merge value.span⟩) height room :=
    .current (.nameBefore (.last (.last taken .pure) .pure))
  exact .sequenceItem entry continued

theorem takes_block {start stop : Span} {tokens : Tokens} {statements : List (Spanned Expr)}
    {last : Option (Spanned Expr)} {height : Nat}
    (taken : deeper.blockItems.Takes tokens (⟨.symbol .rightBrace, stop⟩ :: rest)
      (statements, last) height room) :
    deeper.exprBody.Takes (⟨.symbol .leftBrace, start⟩ :: (tokens ++ [⟨.symbol .rightBrace, stop⟩]))
      rest ⟨.block statements last, start.merge stop⟩ height room :=
  .current (.pass (.lead taken (.expect .pure)))

/-! ### The rest of a block -/

/-- The rest of a block is read from a cursor after a token that stops at `before`. -/
def TakesRest (deeper : Level) (before : Nat) (tokens rest : Tokens) (tree : Spanned Expr)
    (height room : Nat) : Prop :=
  ∀ cursor : Cursor, cursor.remaining = tokens ++ rest → cursor.lastStop = before →
    deeper.blockRest.TakesAt cursor tokens tree height room

theorem start_of_closes {next : Nat} {tokens : Tokens} {cursor : Cursor}
    (closes : ClosesBlock next rest) (remaining : cursor.remaining = tokens ++ rest) :
    cursor.span.start = startBefore next tokens := by
  obtain ⟨stop, others, rfl⟩ := closes
  cases tokens with
  | nil => rw [Cursor.span_of_cons remaining]; rfl
  | cons first more => rw [Cursor.span_of_cons remaining]; rfl

theorem takesRest {before next : Nat} {tokens : Tokens} {statements : List (Spanned Expr)}
    {last : Option (Spanned Expr)} {tree : Spanned Expr} {height : Nat}
    (closes : ClosesBlock next rest)
    (taken : deeper.blockItems.Takes tokens rest (statements, last) height room)
    (made : (statements = [] ∧ last = some tree) ∨ ((statements ≠ [] ∨ last = none) ∧
      tree = ⟨.block statements last, startBefore next tokens,
        max (Cursor.stopAfter before tokens) (startBefore next tokens)⟩)) :
    deeper.TakesRest before tokens rest tree height room := by
  rintro cursor remaining rfl
  have start := start_of_closes closes remaining
  have read : deeper.blockRest.TakesAt cursor ([] ++ (tokens ++ [])) tree (max 0 (max height 0))
      room := by
    refine .bind .here fun after passes => ?_
    have left := passes.remaining_eq (List.nil_append _ ▸ remaining)
    refine .bind (taken after left) fun final later => ?_
    rcases made with ⟨rfl, rfl⟩ | ⟨several, rfl⟩
    · exact .pure
    · split
      · next same =>
        cases same
        rcases several with several | several
        · exact absurd rfl several
        · cases several
      · next same =>
        cases same
        have stop : final.lastStop = Cursor.stopAfter cursor.lastStop tokens := by
          rw [later.lastStop, passes.lastStop]
          rfl
        rw [start, ← stop]
        exact .bind .lastStop fun _ _ => .pure
  simpa using read

/-! ### Constructs -/

theorem takes_statedType?_none (ends : rest.head?.map Spanned.node ≠ some (.symbol .colon)) :
    deeper.statedType?.Takes [] rest none 0 room :=
  .acceptNone ends .pure

theorem takes_statedType? {colon : Span} {tokens : Tokens} {type : Spanned Ty} {height : Nat}
    (taken : deeper.subtype.Takes tokens rest type height room) :
    deeper.statedType?.Takes (⟨.symbol .colon, colon⟩ :: tokens) rest (some type) height room :=
  .accept (.last taken .pure)

/-- An optional word is read if it is there. -/
theorem takes_marked {β : Type} {word : Keyword} {present : Bool} {mark tokens : Tokens}
    {next : Option Span → Parser β} {result : β} {height : Nat} (marked : Marks word present mark)
    (other : (tokens ++ rest).head?.map Spanned.node ≠ some (.keyword word))
    (continued : ∀ found, found.isSome = present →
      (next found).Takes tokens rest result height room) :
    (accept (.keyword word) >>= next).Takes (mark ++ tokens) rest result height room := by
  cases present with
  | false =>
    obtain rfl := List.map_eq_nil_iff.mp marked
    exact .acceptNone other (continued none rfl)
  | true =>
    obtain ⟨⟨node, span⟩, rfl, rfl⟩ := List.map_eq_singleton_iff.mp marked
    exact .accept (continued (some span) rfl)

theorem takes_bindingOver {body : Parser (Spanned Expr)} {start equal semicolon : Span}
    {isMutable : Bool} {name : Name} {mark statedTokens valueTokens bodyTokens : Tokens}
    {type : Option (Spanned Ty)} {value result : Spanned Expr} {first second third : Nat}
    (marked : Marks .mut_ isMutable mark)
    (takenType : deeper.statedType?.Takes statedTokens
      (⟨.symbol .equal, equal⟩ :: (valueTokens ++ ⟨.symbol .semicolon, semicolon⟩ :: bodyTokens) ++
        rest) type first room)
    (takenValue : deeper.subexpr.Takes valueTokens
      (⟨.symbol .semicolon, semicolon⟩ :: bodyTokens ++ rest) value second room)
    (takenBody : ∀ cursor : Cursor, cursor.remaining = bodyTokens ++ rest →
      cursor.lastStop = semicolon.stop → body.TakesAt cursor bodyTokens result third room) :
    (deeper.bindingOver body).Takes
      (⟨.keyword .let_, start⟩ :: (mark ++ name.ident :: (statedTokens ++
        ⟨.symbol .equal, equal⟩ :: (valueTokens ++ ⟨.symbol .semicolon, semicolon⟩ ::
        bodyTokens)))) rest
      ⟨.binding isMutable name type value result, start.merge result.span⟩
      (max first (max second third)) room := by
  refine .expect (takes_marked marked nofun fun found present => .name ?_)
  subst present
  refine .bind takenType (.expect (.bind takenValue (.expectAt fun cursor remaining stop => ?_)))
  have read : (do
      let body ← body
      note (.bound name.node found.isSome)
      return ⟨.binding found.isSome name type value body, start.merge body.span⟩ :
        Parser (Spanned Expr)).TakesAt cursor (bodyTokens ++ [])
      ⟨.binding found.isSome name type value result, start.merge result.span⟩ (max third 0) room :=
    (takenBody cursor remaining stop).bind fun after _ => .ofTakes (.note .pure)
  simpa using read

theorem takes_conditional {start middle last : Span} {asked chosen other : Tokens}
    {condition yes no : Spanned Expr} {first second third : Nat}
    (takenCondition : deeper.subexpr.Takes asked
      (⟨.keyword .then_, middle⟩ :: (chosen ++ ⟨.keyword .else_, last⟩ :: other) ++ rest)
      condition first room)
    (takenYes : deeper.subexpr.Takes chosen (⟨.keyword .else_, last⟩ :: other ++ rest) yes second
      room)
    (takenNo : deeper.subexpr.Takes other rest no third room) :
    deeper.exprBody.Takes
      (⟨.keyword .if_, start⟩ :: (asked ++ ⟨.keyword .then_, middle⟩ ::
        (chosen ++ ⟨.keyword .else_, last⟩ :: other))) rest
      ⟨.conditional condition yes no, start.merge no.span⟩ (max first (max second third)) room :=
  .current (.pass (.bind takenCondition (.expect (.bind takenYes (.expect (.last takenNo .pure))))))

theorem takes_matchArm {arrow : Span} {before after : Tokens} {pattern : Spanned Pattern}
    {body : Spanned Expr} {height : Nat}
    (takenPattern : Parser.pattern.Takes before (⟨.symbol .fatArrow, arrow⟩ :: after ++ rest)
      pattern 0 room)
    (takenBody : deeper.subexpr.Takes after rest body height room) :
    deeper.matchArm.Takes (before ++ ⟨.symbol .fatArrow, arrow⟩ :: after) rest (.mk pattern body)
      height room :=
  .flat takenPattern (.expect (.last takenBody .pure))

theorem takes_matching {start opened stop : Span} {before tokens : Tokens} {subject : Spanned Expr}
    {height : Nat} {arms : List (Part MatchArm)}
    (taken : deeper.subexpr.Takes before
      (⟨.symbol .leftBrace, opened⟩ :: (tokens ++ [⟨.symbol .rightBrace, stop⟩]) ++ rest) subject
      height room)
    (row : Commas (arms.map Part.tokens) tokens)
    (each : ∀ part ∈ arms, Takes.TakesPart .rightBrace deeper.matchArm room part) :
    deeper.exprBody.Takes
      (⟨.keyword .match_, start⟩ :: (before ++ ⟨.symbol .leftBrace, opened⟩ ::
        (tokens ++ [⟨.symbol .rightBrace, stop⟩]))) rest
      ⟨.matching subject (arms.map Part.value), start.merge stop⟩
      (max height (highest (arms.map Part.height))) room :=
  .current (.pass (.bind taken (.expect (.last (.list (by decide) row each) .pure))))

theorem takes_braced {opened stop : Span} {tokens : Tokens} {body : Spanned Expr} {height : Nat}
    (taken : deeper.subexpr.Takes tokens (⟨.symbol .rightBrace, stop⟩ :: rest) body height room) :
    deeper.braced.Takes
      (⟨.symbol .leftBrace, opened⟩ :: (tokens ++ [⟨.symbol .rightBrace, stop⟩])) rest (body, stop)
      height room :=
  .expect (.lead taken (.expect .pure))

theorem takes_whileLoop {start opened stop : Span} {asked tokens : Tokens}
    {condition body : Spanned Expr} {first second : Nat}
    (takenCondition : deeper.subexpr.Takes asked
      (⟨.symbol .leftBrace, opened⟩ :: (tokens ++ [⟨.symbol .rightBrace, stop⟩]) ++ rest) condition
      first room)
    (takenBody : deeper.subexpr.Takes tokens (⟨.symbol .rightBrace, stop⟩ :: rest) body second
      room) :
    deeper.exprBody.Takes
      (⟨.keyword .while_, start⟩ :: (asked ++ ⟨.symbol .leftBrace, opened⟩ ::
        (tokens ++ [⟨.symbol .rightBrace, stop⟩]))) rest
      ⟨.whileLoop condition body, start.merge stop⟩ (max first second) room :=
  .current (.pass (.bind takenCondition (.last (takes_braced takenBody) .pure)))

theorem takes_forLoop {start inside opened stop : Span} {name : Name} {ranged tokens : Tokens}
    {range body : Spanned Expr} {first second : Nat}
    (takenRange : deeper.subexpr.Takes ranged
      (⟨.symbol .leftBrace, opened⟩ :: (tokens ++ [⟨.symbol .rightBrace, stop⟩]) ++ rest) range
      first room)
    (takenBody : deeper.subexpr.Takes tokens (⟨.symbol .rightBrace, stop⟩ :: rest) body second
      room) :
    deeper.exprBody.Takes
      (⟨.keyword .for_, start⟩ :: name.ident :: ⟨.keyword .in_, inside⟩ ::
        (ranged ++ ⟨.symbol .leftBrace, opened⟩ :: (tokens ++ [⟨.symbol .rightBrace, stop⟩]))) rest
      ⟨.forLoop name range body, start.merge stop⟩ (max first second) room :=
  .current (.pass (.name (.expect (.bind takenRange (.last (takes_braced takenBody) .pure)))))

/-- An expression that opens with no construct is made of operators. -/
theorem takes_operators {tokens : Tokens} {tree : Spanned Expr} {height : Nat}
    (opens : Opens Token.opensSigned tokens)
    (taken : (deeper.tierBody 1).Takes tokens rest tree height room) :
    deeper.exprBody.Takes tokens rest tree height room := by
  obtain ⟨⟨token, span⟩, others, rfl, first, _⟩ := opens
  refine .current ?_
  simp only [List.cons_append, List.head?_cons, Option.map_some]
  split
  case h_7 => exact taken
  all_goals next same => cases same; cases first

/-! ### Patterns -/

theorem takes_pattern {tokens : Tokens} {pattern : Spanned Pattern}
    (derived : Pattern.Derives tokens pattern) (ends : EndsName rest) :
    Parser.pattern.Takes tokens rest pattern 0 room := by
  cases derived with
  | int read => exact .current (.literalValue read (.last .passed .pure))
  | float read => exact .current (.literalValue read (.last .passed .pure))
  | string => exact .current (.last .passed .pure)
  | true => exact .current (.last .passed .pure)
  | false => exact .current (.last .passed .pure)
  | wildcard => exact .current (.last .passed .pure)
  | bind name => exact .current (.pass (.acceptNone ends.2 .pure))
  | variant enumeration variant colons =>
    exact .current (.pass (.accept (.name (.acceptNone ends.1 .pure))))
  | variantOf enumeration variant colons start stop row =>
    exact .current (.pass (.accept (.name (.accept (.last (.names (by decide) row) .pure)))))

/-! ### Types -/

theorem takes_arrayLength {digits : String} {length : UInt64}
    (read : readUInt64? digits = some length) (span : Span) :
    arrayLength.Takes [⟨.int digits, span⟩] rest length 0 room := by
  refine .current (.pass ?_)
  rw [read]
  exact .pure

theorem takes_reference {sign : Span} {mark tokens : Tokens} {target : Spanned Ty} {height : Nat}
    {isMutable : Bool} (marked : Marks .mut_ isMutable mark) (opens : Opens Token.opensType tokens)
    (taken : deeper.subtype.Takes tokens rest target height room) :
    deeper.typeBody.Takes (⟨.symbol .ampersand, sign⟩ :: (mark ++ tokens)) rest
      ⟨if isMutable then .mutableReference target.node else .reference target.node,
        sign.merge target.span⟩ height room := by
  refine .current (.pass (takes_marked marked (opens.head rfl) fun found present => ?_))
  subst present
  exact .last taken .pure

theorem takes_arrayType {start semicolon span stop : Span} {digits : String} {length : UInt64}
    (read : readUInt64? digits = some length) {tokens : Tokens} {element : Spanned Ty}
    {height : Nat}
    (taken : deeper.subtype.Takes tokens
      ([⟨.symbol .semicolon, semicolon⟩, ⟨.int digits, span⟩, ⟨.symbol .rightBracket, stop⟩] ++
        rest) element height room) :
    deeper.typeBody.Takes
      (⟨.symbol .leftBracket, start⟩ :: (tokens ++ [⟨.symbol .semicolon, semicolon⟩,
        ⟨.int digits, span⟩, ⟨.symbol .rightBracket, stop⟩])) rest
      ⟨.array element.node length, start.merge stop⟩ height room := by
  refine .current (.pass (.lead taken (.expect ?_)))
  exact .flat (takes_arrayLength read span) (.expect .pure)

theorem takes_unitType (start stop : Span) :
    deeper.typeBody.Takes [⟨.symbol .leftParen, start⟩, ⟨.symbol .rightParen, stop⟩] rest
      ⟨.unit, start.merge stop⟩ 0 room :=
  .current (.pass (.expect .pure))

theorem takes_named (name : Name) :
    deeper.typeBody.Takes [name.ident] rest ⟨.named name.node, name.span⟩ 0 room :=
  .current (.last .passed .pure)

/-- The word for a built-in type is read as that type. -/
theorem takes_primitiveType {base : Primitive} {start : Span} {tokens : Tokens} {tree : Spanned Ty}
    {height : Nat} (taken : (deeper.primitiveType base start).Takes tokens rest tree height room) :
    deeper.typeBody.Takes (⟨.keyword base.word, start⟩ :: tokens) rest tree height room := by
  refine .current ?_
  simp only [List.cons_append, List.head?_cons, Option.map_some, Primitive.ofWord?_word]
  exact .pass taken

theorem takes_primitive (base : Primitive) (start : Span) (ends : EndsType rest) :
    deeper.typeBody.Takes [⟨.keyword base.word, start⟩] rest ⟨.primitive base, start⟩ 0 room := by
  refine takes_primitiveType ?_
  unfold primitiveType
  split
  · exact .acceptNone ends .pure
  · exact .pure

theorem takes_refined {base : Primitive} (refinable : base.isRefinable = true)
    {start opened stop : Span} {tokens : Tokens} {parts : List (Part (Spanned Expr))}
    (row : Commas (parts.map Part.tokens) tokens)
    (each : ∀ part ∈ parts, Takes.TakesPart .rightBrace deeper.subexpr room part) :
    deeper.typeBody.Takes
      (⟨.keyword base.word, start⟩ :: ⟨.symbol .leftBrace, opened⟩ ::
        (tokens ++ [⟨.symbol .rightBrace, stop⟩])) rest
      ⟨.refined base (parts.map Part.value), start.merge stop⟩
      (highest (parts.map Part.height)) room := by
  refine takes_primitiveType ?_
  unfold primitiveType
  rw [if_pos refinable]
  exact .accept (.last (.list (by decide) row each) (.note .pure))

end Level

end ContractSyntax
