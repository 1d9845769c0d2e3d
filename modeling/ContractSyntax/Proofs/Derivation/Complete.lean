/-
**Every derivation is read, if there is room for it.**

A phrase is read before any tokens that do not go on with it. The tokens that may follow are part of
the statement for each kind of phrase: what follows an operand must not be one of its suffixes, what
follows a tier of operators must not bind more tightly, and the rest of a block is followed by the
closing brace. Chains are read up to a point from which they may go on, since a left operand is part
of a longer chain.

* `Phrase.Reads`: what it means that a phrase is read, for each kind;
* `Derives.reads`: every derivation is read, by induction on the derivation.
-/

import ContractSyntax.Proofs.Derivation.TakingLevel

namespace ContractSyntax

open ContractSyntax.Parser Level

/-- At every level that has the room, the parser takes the tokens before any that may follow. -/
def ReadsBefore {α : Type} (follows : Tokens → Prop) (parser : Level → Parser α) (tokens : Tokens)
    (tree : α) (height : Nat) : Prop :=
  ∀ count room rest, room ≤ count → follows rest →
    (parser (tower count)).Takes tokens rest tree height room

/-- A phrase is read before any tokens that may follow it. -/
def Phrase.Reads : (phrase : Phrase) → Tokens → phrase.Tree → Nat → Prop
  | expr => ReadsBefore EndsExpr exprBody
  | subexpr => ReadsBefore EndsExpr Level.subexpr
  | tier power => fun tokens tree height => ∀ lower count room rest, lower ≤ power → room ≤ count →
      EndsTier power rest → (tower count).Operating lower tokens rest tree height room
  | signed => ReadsBefore EndsOperand signedBody
  | suffixed => fun tokens tree height => ∀ count room rest, room ≤ count → EndsName rest →
      (tower count).Suffixing tokens rest tree height room
  | primary => ReadsBefore EndsName Level.primary
  | field => ReadsBefore EndsExpr fieldValue
  | arm => ReadsBefore EndsExpr matchArm
  | type => ReadsBefore EndsType typeBody
  | subtype => ReadsBefore EndsType Level.subtype
  | stated => ReadsBefore
      (fun rest => EndsType rest ∧ rest.head?.map Spanned.node ≠ some (.symbol .colon)) statedType?
  | binding next => ReadsBefore (ClosesBlock next) bindingBody
  | rest before next => fun tokens tree height => ∀ count room rest, room ≤ count →
      ClosesBlock next rest → (tower count).TakesRest before tokens rest tree height room
  | items next => ReadsBefore (ClosesBlock next) blockItems

/-- The expressions of a list are its parts. -/
theorem ReadsBefore.parts {α : Type} {parser : Level → Parser α} {parts : List (Part α)}
    {close : Symbol} (ends : (Token.symbol close).isContinuation = false)
    (each : ∀ part ∈ parts, ReadsBefore EndsExpr parser part.tokens part.value part.height)
    (starts : ∀ part ∈ parts, ∀ rest,
      (part.tokens ++ rest).head?.map Spanned.node ≠ some (.symbol close))
    {count room : Nat} (fits : room ≤ count) :
    ∀ part ∈ parts, Takes.TakesPart close (parser (tower count)) room part := by
  intro part member
  refine ⟨fun rest listed => ?_, starts part member⟩
  exact each part member count room rest fits (.ofListed ends listed)

/-- A parser of the level below is read one level deeper. -/
theorem ReadsBefore.nested {α : Type} {follows : Tokens → Prop} (body inner : Level → Parser α)
    (above : ∀ level : Level, inner level.above = body level) {tokens : Tokens} {tree : α}
    {height : Nat} (reads : ReadsBefore follows body tokens tree height) :
    ReadsBefore follows (fun level => Parser.nested (inner level)) tokens tree (height + 1) := by
  intro count room rest fits may
  refine .nested fun smaller same => ?_
  obtain ⟨below, rfl⟩ : ∃ below, count = below + 1 := ⟨count - 1, by omega⟩
  show (inner (tower below).above).Takes tokens rest tree height smaller
  rw [above]
  exact reads below smaller rest (by omega) may

/-- The parts of a list do not begin with the symbol that closes it. -/
theorem starts_of_derives {parts : List (Part (Spanned Expr))} {close : Symbol}
    (other : (Token.symbol close).opensExpr = false)
    (derived : ∀ part ∈ parts, Derives .subexpr part.tokens part.value part.height) :
    ∀ part ∈ parts, ∀ rest,
      (part.tokens ++ rest).head?.map Spanned.node ≠ some (.symbol close) :=
  fun part member _ => (derived part member).opened.head other

theorem ne_of_opened {tokens rest : Tokens}
    (opened : ∃ token others, tokens = token :: others ∧ token.node ≠ .symbol .rightBrace) :
    (tokens ++ rest).head?.map Spanned.node ≠ some (.symbol .rightBrace) := by
  obtain ⟨token, others, rfl, other⟩ := opened
  exact fun here => other (Option.some.inj here)

/-- A binding begins with the word for it. -/
theorem Derives.binding_first {next : Nat} {tokens : Tokens} {tree : Spanned Expr} {height : Nat}
    (derived : Derives (.binding next) tokens tree height) :
    tokens.head?.map Spanned.node = some (.keyword .let_) := by
  cases derived
  rfl

theorem ClosesBlock.ends {next : Nat} {rest : Tokens} (closes : ClosesBlock next rest) :
    EndsExpr rest := by
  obtain ⟨stop, others, rfl⟩ := closes
  exact .cons rfl

/-- Every derivation is read. -/
theorem Derives.reads {phrase : Phrase} {tokens : Tokens} {tree : phrase.Tree} {height : Nat}
    (derived : Derives phrase tokens tree height) : phrase.Reads tokens tree height := by
  induction derived with
  -- operands
  | int read span => exact fun _ _ _ _ _ => takes_int read span
  | float read span => exact fun _ _ _ _ _ => takes_float read span
  | string content span => exact fun _ _ _ _ _ => takes_string content span
  | true | false | ret | it => exact fun _ _ _ _ _ => .current (.last .passed .pure)
  | unit => exact fun _ _ _ _ _ => .current (.pass (.accept .pure))
  | paren start stop derived reads =>
    intro count room rest fits _
    exact takes_paren start stop derived.opened (reads count room _ fits (.cons rfl))
  | array start stop parts row derived reads =>
    intro count room rest fits _
    exact takes_array start stop row
      (ReadsBefore.parts rfl reads (starts_of_derives rfl derived) fits)
  | construct start opened stop struct parts row derived reads =>
    intro count room rest fits _
    exact takes_construct start opened stop struct row
      (ReadsBefore.parts rfl reads (fun part member _ => ne_of_opened (derived part member).opened)
        fits)
  | var name => exact fun _ _ _ _ ends => takes_var name ends
  | call function start stop parts row derived reads =>
    intro count room rest fits _
    exact takes_call function start stop row
      (ReadsBefore.parts rfl reads (starts_of_derives rfl derived) fits)
  | variant enumeration variant colons =>
    exact fun _ _ _ _ ends => takes_variant enumeration variant colons ends
  | variantOf enumeration variant colons start stop parts row derived reads =>
    intro count room rest fits _
    exact takes_variantOf enumeration variant colons start stop row
      (ReadsBefore.parts rfl reads (starts_of_derives rfl derived) fits)
  | field name colon _ reads =>
    exact fun count room rest fits ends => takes_fieldValue (reads count room rest fits ends)
  -- suffixes
  | operand _ reads => exact fun count room rest fits ends => .operand (reads count room rest fits ends)
  | state moment dot stop _ reads =>
    exact fun count room rest fits _ => suffixing_state (reads count room _ fits (.cons nofun nofun))
  | member name dot _ reads =>
    intro count room rest fits ends
    exact suffixing_member ends (reads count room _ fits (.cons nofun nofun))
  | methodCall method dot start stop _ parts row derived reads each =>
    intro count room rest fits _
    refine suffixing_methodCall (reads count room _ fits (.cons nofun nofun)) row fun smaller less => ?_
    exact ReadsBefore.parts rfl each (starts_of_derives rfl derived) (Nat.le_trans less fits)
  | index start stop _ _ reads inner =>
    intro count room rest fits _
    refine suffixing_index (reads count room _ fits (.cons nofun nofun)) fun smaller less => ?_
    exact inner count smaller _ (Nat.le_trans less fits) (.cons rfl)
  -- operators
  | unsigned derived reads =>
    intro count room rest fits ends
    exact takes_unsigned derived.opened (takes_suffixed ends (reads count room rest fits ends.name))
  | least sign span => exact fun _ _ _ _ ends => takes_least sign span ends
  | unary operator first others spelled derived reads =>
    intro count room rest fits ends
    exact takes_unary operator spelled derived.opened
      (ReadsBefore.nested signedBody signed (fun _ => rfl) reads count room rest fits ends)
  | single power _ reads =>
    exact fun lower count room rest _ fits ends => .operand (reads count room rest fits ends.1)
  | binary operator tight span _ _ reads right =>
    intro lower count room rest loose fits ends
    have bound := Nat.le_trans loose tight
    refine operating_binary bound (reads lower count room _ bound fits .operator) fun more => ?_
    obtain ⟨below, rfl⟩ : ∃ below, count = below + 1 := ⟨count - 1, by omega⟩
    have wider := ends.mono (Nat.le_trans tight (Nat.le_succ _))
    refine takes_tierBody (fun next here => ?_)
      (right _ below _ rest (Nat.le_refl _) (by omega) wider)
    exact Nat.lt_succ_of_le (Nat.le_trans (ends.2 next here) tight)
  -- constructs
  | nested _ reads => exact .nested exprBody Level.expr (fun _ => rfl) reads
  | operators derived reads =>
    intro count room rest fits ends
    have chained := reads 1 count room rest (Nat.le_refl 1) fits (ends.tier 1)
    refine takes_operators derived.opened (takes_tierBody (fun operator here => ?_) chained)
    rw [ends.infix_eq_none] at here
    cases here
  | conditional start middle last _ _ _ condition yes no =>
    intro count room rest fits ends
    exact takes_conditional (condition count room _ fits (.cons rfl))
      (yes count room _ fits (.cons rfl)) (no count room rest fits ends)
  | binding start equal semicolon isMutable name marked _ _ _ type value body =>
    intro count room rest fits ends
    refine .current (takes_bindingOver marked (type count room _ fits ⟨nofun, nofun⟩)
      (value count room _ fits (.cons rfl)) fun cursor remaining _ => ?_)
    exact body count room rest fits ends cursor remaining
  | matching start opened stop _ arms row derived reads each =>
    intro count room rest fits _
    refine takes_matching (reads count room _ fits (.cons rfl)) row ?_
    exact ReadsBefore.parts rfl each
      (fun part member _ => ne_of_opened (derived part member).opened) fits
  | arm arrow pattern _ reads =>
    intro count room rest fits ends
    exact takes_matchArm (takes_pattern pattern (.cons nofun nofun)) (reads count room rest fits ends)
  | whileLoop start opened stop _ _ condition body =>
    intro count room rest fits _
    exact takes_whileLoop (condition count room _ fits (.cons rfl))
      (body count room _ fits (.cons rfl))
  | forLoop start inside opened stop name _ _ range body =>
    intro count room rest fits _
    exact takes_forLoop (range count room _ fits (.cons rfl)) (body count room _ fits (.cons rfl))
  | block start stop _ items =>
    intro count room rest fits _
    exact takes_block (items count room _ fits ⟨_, _, rfl⟩)
  -- blocks
  | nothing next => exact fun _ _ _ _ closes => takes_blockItems_nothing closes
  | value next unbound derived reads =>
    intro count room rest fits closes
    exact takes_blockItems_value closes derived.opened unbound
      (reads count room rest fits closes.ends)
  | bound derived reads =>
    intro count room rest fits closes
    exact takes_blockItems_bound derived.binding_first
      (ReadsBefore.nested bindingBody Level.binding (fun _ => rfl) reads count room rest fits closes)
  | statement semicolon unbound derived _ reads continued =>
    intro count room rest fits closes
    exact takes_blockItems_statement derived.opened unbound (reads count room _ fits (.cons rfl))
      (continued count room rest fits closes)
  | assign target equal semicolon _ _ reads continued =>
    intro count room rest fits closes
    exact takes_blockItems_assign (reads count room _ fits (.cons rfl))
      (continued count room rest fits closes)
  | bindingRest start equal semicolon isMutable name marked _ _ _ type value body =>
    intro count room rest fits closes
    exact takes_bindingOver marked (type count room _ fits ⟨nofun, nofun⟩)
      (value count room _ fits (.cons rfl)) (body count room rest fits closes)
  | lone before _ items =>
    exact fun count room rest fits closes =>
      takesRest closes (items count room rest fits closes) (.inl ⟨rfl, rfl⟩)
  | remainder before _ several items =>
    exact fun count room rest fits closes =>
      takesRest closes (items count room rest fits closes) (.inr ⟨several, rfl⟩)
  -- types
  | nestedType _ reads => exact .nested typeBody Level.type (fun _ => rfl) reads
  | unstated => exact fun _ _ _ _ ends => takes_statedType?_none ends.2
  | stated colon _ reads =>
    exact fun count room rest fits ends => takes_statedType? (reads count room rest fits ends.1)
  | primitive base span => exact fun _ _ _ _ ends => takes_primitive base span ends
  | unitType start stop => exact fun _ _ _ _ _ => takes_unitType start stop
  | named name => exact fun _ _ _ _ _ => takes_named name
  | reference sign isMutable marked derived reads =>
    intro count room rest fits ends
    exact takes_reference marked derived.opened (reads count room rest fits ends)
  | arrayType start semicolon span stop read _ reads =>
    exact fun count room rest fits _ => takes_arrayType read (reads count room _ fits nofun)
  | refined base refinable start opened stop parts row derived reads =>
    intro count room rest fits _
    exact takes_refined refinable row
      (ReadsBefore.parts rfl reads (starts_of_derives rfl derived) fits)

end ContractSyntax
