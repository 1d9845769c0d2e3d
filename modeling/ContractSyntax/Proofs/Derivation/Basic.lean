/-
**Derivations: how tokens make up a tree.**

`Derives phrase tokens tree height` says that the tokens, in the places they have, make up the tree
as a phrase of the grammar, and that reading them opens `height` levels of nesting. Nothing is said
about the tokens around them, so a derivation can be moved into any context. The one exception is
the rest of a block after a binding: its span begins where the next token begins even if the rest is
empty, so these phrases carry the offset at which the token after them starts, and the offset at
which the token before them stops.

* `Commas`: rows of phrases with commas between them, and possibly one after the last;
* `Derives`: the rules, one for each way in which a construct can be written.
-/

import ContractSyntax.Parser.Cursor
import ContractSyntax.Decimal.Reading
import ContractSyntax.Tree.Printer

namespace ContractSyntax

/-- A row of tokens with their places. -/
abbrev Tokens := List (Spanned Token)

/-! ### Rows of phrases -/

/-- Some tokens with the tree that they make up and its height. -/
structure Part (α : Type) where
  tokens : Tokens
  value : α
  height : Nat

/-- The greatest of some heights, zero if there are none. -/
def highest : List Nat → Nat
  | [] => 0
  | height :: rest => max height (highest rest)

@[simp] theorem highest_nil : highest [] = 0 := rfl

@[simp] theorem highest_cons (height : Nat) (rest : List Nat) :
    highest (height :: rest) = max height (highest rest) := rfl

theorem highest_eq_zero {heights : List Nat} (flat : ∀ height ∈ heights, height = 0) :
    highest heights = 0 := by
  induction heights with
  | nil => rfl
  | cons height rest continued =>
    rw [highest_cons, flat height List.mem_cons_self,
      continued fun other member => flat other (List.mem_cons_of_mem _ member), Nat.max_self]

/-- The tokens of a row of phrases: a comma after each, which the last may lack. -/
inductive Commas : List Tokens → Tokens → Prop
  | none : Commas [] []
  | last (tokens : Tokens) : Commas [tokens] tokens
  | more (tokens : Tokens) (comma : Span) {others : List Tokens} {rest : Tokens}
      (continued : Commas others rest) :
      Commas (tokens :: others) (tokens ++ ⟨.symbol .comma, comma⟩ :: rest)

/-- A row of phrases, each of which `meaning` relates to a value and a height. -/
def Row {α : Type} (meaning : Tokens → α → Nat → Prop) (tokens : Tokens) (values : List α)
    (height : Nat) : Prop :=
  ∃ parts : List (Part α), Commas (parts.map Part.tokens) tokens ∧
    values = parts.map Part.value ∧ height = highest (parts.map Part.height) ∧
    ∀ part ∈ parts, meaning part.tokens part.value part.height

/-! ### Phrases -/

/-- The kinds of phrases that contain one another. -/
inductive Phrase where
  /-- An expression. -/
  | expr
  /-- An expression one level deeper. -/
  | subexpr
  /-- Infix operators that bind as tightly as stated, or more. -/
  | tier (power : Nat)
  /-- An operand with the operators before it. -/
  | signed
  /-- An operand with its suffixes. -/
  | suffixed
  /-- An operand. -/
  | primary
  /-- A field of a new structure with its value. -/
  | field
  /-- An alternative of a `match`. -/
  | arm
  /-- A type. -/
  | type
  /-- A type one level deeper. -/
  | subtype
  /-- A type after a colon, or nothing. -/
  | stated
  /-- A binding in a block with the rest of the block, before a token that starts at `next`. -/
  | binding (next : Nat)
  /-- The rest of a block after a token that stops at `before`. -/
  | rest (before next : Nat)
  /-- Statements of a block and its value. -/
  | items (next : Nat)

/-- What a phrase stands for. -/
@[reducible] def Phrase.Tree : Phrase → Type
  | expr => Spanned Expr
  | subexpr => Spanned Expr
  | tier _ => Spanned Expr
  | signed => Spanned Expr
  | suffixed => Spanned Expr
  | primary => Spanned Expr
  | field => FieldValue
  | arm => MatchArm
  | type => Spanned Ty
  | subtype => Spanned Ty
  | stated => Option (Spanned Ty)
  | binding _ => Spanned Expr
  | rest _ _ => Spanned Expr
  | items _ => List (Spanned Expr) × Option (Spanned Expr)

/-- A name as the token that spells it. -/
abbrev Spanned.ident (name : Name) : Spanned Token := ⟨.ident name.node, name.span⟩

/-- Whether some tokens are a reserved word that may be left out. -/
def Marks (word : Keyword) (present : Bool) (tokens : Tokens) : Prop :=
  tokens.map Spanned.node = if present then [.keyword word] else []

/-- Where a row of tokens starts, which is `next` if there are none. -/
def startBefore (next : Nat) : Tokens → Nat
  | [] => next
  | token :: _ => token.span.start

/-- The tokens of an operator before its operand. -/
def UnaryOperator.tokens (operator : UnaryOperator) : List Token := Piece.tokens operator.pieces

/-! ### Patterns -/

/-- The tokens of a pattern. -/
inductive Pattern.Derives : Tokens → Spanned Pattern → Prop
  | int {digits : String} {value : Int64} (read : readInt64? digits = some value) (span : Span) :
      Pattern.Derives [⟨.int digits, span⟩] ⟨.literal (.int value), span⟩
  | float {digits : String} {value : Binary64} (read : readBinary64? digits = some value)
      (span : Span) : Pattern.Derives [⟨.float digits, span⟩] ⟨.literal (.float value), span⟩
  | string (content : String) (span : Span) :
      Pattern.Derives [⟨.string content, span⟩] ⟨.literal (.string content), span⟩
  | true (span : Span) : Pattern.Derives [⟨.keyword .true_, span⟩] ⟨.literal (.bool true), span⟩
  | false (span : Span) : Pattern.Derives [⟨.keyword .false_, span⟩] ⟨.literal (.bool false), span⟩
  | wildcard (span : Span) : Pattern.Derives [⟨.keyword .underscore, span⟩] ⟨.wildcard, span⟩
  | bind (name : Name) : Pattern.Derives [name.ident] ⟨.bind name.node, name.span⟩
  | variant (enumeration variant : Name) (colons : Span) :
      Pattern.Derives [enumeration.ident, ⟨.symbol .colonColon, colons⟩, variant.ident]
        ⟨.variant enumeration variant none, enumeration.span.merge variant.span⟩
  | variantOf (enumeration variant : Name) (colons start stop : Span) {bindings : List Name}
      {tokens : Tokens} (row : Commas (bindings.map fun binding => [binding.ident]) tokens) :
      Pattern.Derives
        (enumeration.ident :: ⟨.symbol .colonColon, colons⟩ :: variant.ident ::
          ⟨.symbol .leftParen, start⟩ :: (tokens ++ [⟨.symbol .rightParen, stop⟩]))
        ⟨.variant enumeration variant (some bindings), enumeration.span.merge stop⟩

/-! ### Expressions and types -/

/-- The tokens of an expression or a type. -/
inductive Derives : (phrase : Phrase) → Tokens → phrase.Tree → Nat → Prop
  -- operands
  | int {digits : String} {value : Int64} (read : readInt64? digits = some value) (span : Span) :
      Derives .primary [⟨.int digits, span⟩] ⟨.int value, span⟩ 0
  | float {digits : String} {value : Binary64} (read : readBinary64? digits = some value)
      (span : Span) : Derives .primary [⟨.float digits, span⟩] ⟨.float value, span⟩ 0
  | string (content : String) (span : Span) :
      Derives .primary [⟨.string content, span⟩] ⟨.string content, span⟩ 0
  | true (span : Span) : Derives .primary [⟨.keyword .true_, span⟩] ⟨.bool true, span⟩ 0
  | false (span : Span) : Derives .primary [⟨.keyword .false_, span⟩] ⟨.bool false, span⟩ 0
  | ret (span : Span) : Derives .primary [⟨.keyword .ret, span⟩] ⟨.ret, span⟩ 0
  | it (span : Span) : Derives .primary [⟨.keyword .it, span⟩] ⟨.it, span⟩ 0
  | unit (start stop : Span) :
      Derives .primary [⟨.symbol .leftParen, start⟩, ⟨.symbol .rightParen, stop⟩]
        ⟨.unit, start.merge stop⟩ 0
  | paren (start stop : Span) {tokens : Tokens} {inner : Spanned Expr} {height : Nat}
      (derived : Derives .subexpr tokens inner height) :
      Derives .primary
        (⟨.symbol .leftParen, start⟩ :: (tokens ++ [⟨.symbol .rightParen, stop⟩]))
        ⟨.paren inner, start.merge stop⟩ height
  | array (start stop : Span) {tokens : Tokens} (elements : List (Part (Spanned Expr)))
      (row : Commas (elements.map Part.tokens) tokens)
      (derived : ∀ part ∈ elements, Derives .subexpr part.tokens part.value part.height) :
      Derives .primary
        (⟨.symbol .leftBracket, start⟩ :: (tokens ++ [⟨.symbol .rightBracket, stop⟩]))
        ⟨.array (elements.map Part.value), start.merge stop⟩
        (highest (elements.map Part.height))
  | construct (start open_ stop : Span) (struct : Name) {tokens : Tokens}
      (fields : List (Part FieldValue)) (row : Commas (fields.map Part.tokens) tokens)
      (derived : ∀ part ∈ fields, Derives .field part.tokens part.value part.height) :
      Derives .primary
        (⟨.keyword .new, start⟩ :: struct.ident :: ⟨.symbol .leftBrace, open_⟩ ::
          (tokens ++ [⟨.symbol .rightBrace, stop⟩]))
        ⟨.construct struct (fields.map Part.value), start.merge stop⟩
        (highest (fields.map Part.height))
  | var (name : Name) : Derives .primary [name.ident] ⟨.var name.node, name.span⟩ 0
  | call (function : Name) (start stop : Span) {tokens : Tokens}
      (given : List (Part (Spanned Expr))) (row : Commas (given.map Part.tokens) tokens)
      (derived : ∀ part ∈ given, Derives .subexpr part.tokens part.value part.height) :
      Derives .primary
        (function.ident :: ⟨.symbol .leftParen, start⟩ ::
          (tokens ++ [⟨.symbol .rightParen, stop⟩]))
        ⟨.call function (given.map Part.value), function.span.merge stop⟩
        (highest (given.map Part.height))
  | variant (enumeration variant : Name) (colons : Span) :
      Derives .primary [enumeration.ident, ⟨.symbol .colonColon, colons⟩, variant.ident]
        ⟨.variant enumeration variant none, enumeration.span.merge variant.span⟩ 0
  | variantOf (enumeration variant : Name) (colons start stop : Span) {tokens : Tokens}
      (given : List (Part (Spanned Expr))) (row : Commas (given.map Part.tokens) tokens)
      (derived : ∀ part ∈ given, Derives .subexpr part.tokens part.value part.height) :
      Derives .primary
        (enumeration.ident :: ⟨.symbol .colonColon, colons⟩ :: variant.ident ::
          ⟨.symbol .leftParen, start⟩ :: (tokens ++ [⟨.symbol .rightParen, stop⟩]))
        ⟨.variant enumeration variant (some (given.map Part.value)), enumeration.span.merge stop⟩
        (highest (given.map Part.height))
  | field (name : Name) (colon : Span) {tokens : Tokens} {value : Spanned Expr} {height : Nat}
      (derived : Derives .subexpr tokens value height) :
      Derives .field (name.ident :: ⟨.symbol .colon, colon⟩ :: tokens) (.mk name value) height
  -- suffixes
  | operand {tokens : Tokens} {operand : Spanned Expr} {height : Nat}
      (derived : Derives .primary tokens operand height) : Derives .suffixed tokens operand height
  | state (moment : Moment) (dot stop : Span) {tokens : Tokens} {receiver : Spanned Expr}
      {height : Nat} (derived : Derives .suffixed tokens receiver height) :
      Derives .suffixed (tokens ++ [⟨.symbol .dot, dot⟩, ⟨.keyword moment.word, stop⟩])
        ⟨.state receiver moment, receiver.span.merge stop⟩ (height + 1)
  | member (name : Name) (dot : Span) {tokens : Tokens} {receiver : Spanned Expr} {height : Nat}
      (derived : Derives .suffixed tokens receiver height) :
      Derives .suffixed (tokens ++ [⟨.symbol .dot, dot⟩, name.ident])
        ⟨.field receiver name, receiver.span.merge name.span⟩ (height + 1)
  | methodCall (method : Name) (dot start stop : Span) {before tokens : Tokens}
      {receiver : Spanned Expr} {height : Nat} (derived : Derives .suffixed before receiver height)
      (given : List (Part (Spanned Expr))) (row : Commas (given.map Part.tokens) tokens)
      (each : ∀ part ∈ given, Derives .subexpr part.tokens part.value part.height) :
      Derives .suffixed
        (before ++ ⟨.symbol .dot, dot⟩ :: method.ident :: ⟨.symbol .leftParen, start⟩ ::
          (tokens ++ [⟨.symbol .rightParen, stop⟩]))
        ⟨.methodCall receiver method (given.map Part.value), receiver.span.merge stop⟩
        (height + 1 + highest (given.map Part.height))
  | index (start stop : Span) {before tokens : Tokens} {receiver position : Spanned Expr}
      {height depth : Nat} (derived : Derives .suffixed before receiver height)
      (inner : Derives .subexpr tokens position depth) :
      Derives .suffixed
        (before ++ ⟨.symbol .leftBracket, start⟩ :: (tokens ++ [⟨.symbol .rightBracket, stop⟩]))
        ⟨.index receiver position, receiver.span.merge stop⟩ (height + 1 + depth)
  -- operators
  | unsigned {tokens : Tokens} {operand : Spanned Expr} {height : Nat}
      (derived : Derives .suffixed tokens operand height) : Derives .signed tokens operand height
  | least (sign span : Span) :
      Derives .signed [⟨.symbol .minus, sign⟩, ⟨.int "9223372036854775808", span⟩]
        ⟨.int Int64.minValue, sign.merge span⟩ 0
  | unary (operator : UnaryOperator) (first : Spanned Token) (others : Tokens)
      (spelled : (first :: others).map Spanned.node = operator.tokens) {tokens : Tokens}
      {operand : Spanned Expr} {height : Nat} (derived : Derives .signed tokens operand height) :
      Derives .signed (first :: (others ++ tokens))
        ⟨.unary operator operand, first.span.merge operand.span⟩ (height + 1)
  | single (power : Nat) {tokens : Tokens} {operand : Spanned Expr} {height : Nat}
      (derived : Derives .signed tokens operand height) :
      Derives (.tier power) tokens operand height
  | binary (operator : BinaryOperator) {power : Nat} (tight : power ≤ operator.power) (span : Span)
      {before after : Tokens} {left right : Spanned Expr} {height depth : Nat}
      (first : Derives (.tier operator.power) before left height)
      (second : Derives (.tier (operator.power + 1)) after right depth) :
      Derives (.tier power) (before ++ ⟨operator.token, span⟩ :: after)
        ⟨.binary left operator right, left.span.merge right.span⟩ (height + 1 + depth)
  -- constructs
  | nested {tokens : Tokens} {expr : Spanned Expr} {height : Nat}
      (derived : Derives .expr tokens expr height) : Derives .subexpr tokens expr (height + 1)
  | operators {tokens : Tokens} {expr : Spanned Expr} {height : Nat}
      (derived : Derives (.tier 1) tokens expr height) : Derives .expr tokens expr height
  | conditional (start middle last : Span) {asked chosen other : Tokens}
      {condition yes no : Spanned Expr} {first second third : Nat}
      (derivedCondition : Derives .subexpr asked condition first)
      (derivedYes : Derives .subexpr chosen yes second)
      (derivedNo : Derives .subexpr other no third) :
      Derives .expr
        (⟨.keyword .if_, start⟩ :: (asked ++ ⟨.keyword .then_, middle⟩ ::
          (chosen ++ ⟨.keyword .else_, last⟩ :: other)))
        ⟨.conditional condition yes no, start.merge no.span⟩
        (max first (max second third))
  | binding (start equal semicolon : Span) (isMutable : Bool) (name : Name)
      {mark statedTokens valueTokens bodyTokens : Tokens} {type : Option (Spanned Ty)}
      {value body : Spanned Expr} {first second third : Nat} (marked : Marks .mut_ isMutable mark)
      (derivedType : Derives .stated statedTokens type first)
      (derivedValue : Derives .subexpr valueTokens value second)
      (derivedBody : Derives .subexpr bodyTokens body third) :
      Derives .expr
        (⟨.keyword .let_, start⟩ :: (mark ++ name.ident :: (statedTokens ++
          ⟨.symbol .equal, equal⟩ :: (valueTokens ++ ⟨.symbol .semicolon, semicolon⟩ ::
          bodyTokens))))
        ⟨.binding isMutable name type value body, start.merge body.span⟩
        (max first (max second third))
  | matching (start open_ stop : Span) {before tokens : Tokens} {subject : Spanned Expr}
      {height : Nat} (derived : Derives .subexpr before subject height) (arms : List (Part MatchArm))
      (row : Commas (arms.map Part.tokens) tokens)
      (each : ∀ part ∈ arms, Derives .arm part.tokens part.value part.height) :
      Derives .expr
        (⟨.keyword .match_, start⟩ :: (before ++ ⟨.symbol .leftBrace, open_⟩ ::
          (tokens ++ [⟨.symbol .rightBrace, stop⟩])))
        ⟨.matching subject (arms.map Part.value), start.merge stop⟩
        (max height (highest (arms.map Part.height)))
  | arm (arrow : Span) {before after : Tokens} {pattern : Spanned Pattern} {body : Spanned Expr}
      {height : Nat} (derivedPattern : Pattern.Derives before pattern)
      (derivedBody : Derives .subexpr after body height) :
      Derives .arm (before ++ ⟨.symbol .fatArrow, arrow⟩ :: after) (.mk pattern body) height
  | whileLoop (start open_ stop : Span) {asked tokens : Tokens} {condition body : Spanned Expr}
      {first second : Nat} (derivedCondition : Derives .subexpr asked condition first)
      (derivedBody : Derives .subexpr tokens body second) :
      Derives .expr
        (⟨.keyword .while_, start⟩ :: (asked ++ ⟨.symbol .leftBrace, open_⟩ ::
          (tokens ++ [⟨.symbol .rightBrace, stop⟩])))
        ⟨.whileLoop condition body, start.merge stop⟩ (max first second)
  | forLoop (start in_ open_ stop : Span) (name : Name) {ranged tokens : Tokens}
      {range body : Spanned Expr} {first second : Nat}
      (derivedRange : Derives .subexpr ranged range first)
      (derivedBody : Derives .subexpr tokens body second) :
      Derives .expr
        (⟨.keyword .for_, start⟩ :: name.ident :: ⟨.keyword .in_, in_⟩ ::
          (ranged ++ ⟨.symbol .leftBrace, open_⟩ :: (tokens ++ [⟨.symbol .rightBrace, stop⟩])))
        ⟨.forLoop name range body, start.merge stop⟩ (max first second)
  | block (start stop : Span) {tokens : Tokens} {statements : List (Spanned Expr)}
      {last : Option (Spanned Expr)} {height : Nat}
      (derived : Derives (.items stop.start) tokens (statements, last) height) :
      Derives .expr (⟨.symbol .leftBrace, start⟩ :: (tokens ++ [⟨.symbol .rightBrace, stop⟩]))
        ⟨.block statements last, start.merge stop⟩ height
  -- blocks
  | nothing (next : Nat) : Derives (.items next) [] ([], none) 0
  | value (next : Nat) {tokens : Tokens} {expr : Spanned Expr} {height : Nat}
      (unbound : tokens.head?.map Spanned.node ≠ some (.keyword .let_))
      (derived : Derives .subexpr tokens expr height) :
      Derives (.items next) tokens ([], some expr) height
  | bound {next : Nat} {tokens : Tokens} {expr : Spanned Expr} {height : Nat}
      (derived : Derives (.binding next) tokens expr height) :
      Derives (.items next) tokens ([], some expr) (height + 1)
  | statement (semicolon : Span) {next : Nat} {tokens others : Tokens} {expr : Spanned Expr}
      {statements : List (Spanned Expr)} {last : Option (Spanned Expr)} {height depth : Nat}
      (unbound : tokens.head?.map Spanned.node ≠ some (.keyword .let_))
      (derived : Derives .subexpr tokens expr height)
      (continued : Derives (.items next) others (statements, last) depth) :
      Derives (.items next) (tokens ++ ⟨.symbol .semicolon, semicolon⟩ :: others)
        (expr :: statements, last) (max height depth)
  | assign (target : Name) (equal semicolon : Span) {next : Nat} {tokens others : Tokens}
      {value : Spanned Expr} {statements : List (Spanned Expr)} {last : Option (Spanned Expr)}
      {height depth : Nat} (derived : Derives .subexpr tokens value height)
      (continued : Derives (.items next) others (statements, last) depth) :
      Derives (.items next)
        (target.ident :: ⟨.symbol .equal, equal⟩ ::
          (tokens ++ ⟨.symbol .semicolon, semicolon⟩ :: others))
        (⟨.assign target value, target.span.merge value.span⟩ :: statements, last)
        (max height depth)
  | bindingRest (start equal semicolon : Span) (isMutable : Bool) (name : Name) {next : Nat}
      {mark statedTokens valueTokens bodyTokens : Tokens} {type : Option (Spanned Ty)}
      {value body : Spanned Expr} {first second third : Nat} (marked : Marks .mut_ isMutable mark)
      (derivedType : Derives .stated statedTokens type first)
      (derivedValue : Derives .subexpr valueTokens value second)
      (derivedBody : Derives (.rest semicolon.stop next) bodyTokens body third) :
      Derives (.binding next)
        (⟨.keyword .let_, start⟩ :: (mark ++ name.ident :: (statedTokens ++
          ⟨.symbol .equal, equal⟩ :: (valueTokens ++ ⟨.symbol .semicolon, semicolon⟩ ::
          bodyTokens))))
        ⟨.binding isMutable name type value body, start.merge body.span⟩
        (max first (max second third))
  | lone (before : Nat) {next : Nat} {tokens : Tokens} {expr : Spanned Expr} {height : Nat}
      (derived : Derives (.items next) tokens ([], some expr) height) :
      Derives (.rest before next) tokens expr height
  | remainder (before : Nat) {next : Nat} {tokens : Tokens} {statements : List (Spanned Expr)}
      {last : Option (Spanned Expr)} {height : Nat}
      (derived : Derives (.items next) tokens (statements, last) height)
      (several : statements ≠ [] ∨ last = none) :
      Derives (.rest before next) tokens
        ⟨.block statements last, startBefore next tokens,
          max (Cursor.stopAfter before tokens) (startBefore next tokens)⟩ height
  -- types
  | nestedType {tokens : Tokens} {type : Spanned Ty} {height : Nat}
      (derived : Derives .type tokens type height) : Derives .subtype tokens type (height + 1)
  | unstated : Derives .stated [] none 0
  | stated (colon : Span) {tokens : Tokens} {type : Spanned Ty} {height : Nat}
      (derived : Derives .subtype tokens type height) :
      Derives .stated (⟨.symbol .colon, colon⟩ :: tokens) (some type) height
  | primitive (base : Primitive) (span : Span) :
      Derives .type [⟨.keyword base.word, span⟩] ⟨.primitive base, span⟩ 0
  | unitType (start stop : Span) :
      Derives .type [⟨.symbol .leftParen, start⟩, ⟨.symbol .rightParen, stop⟩]
        ⟨.unit, start.merge stop⟩ 0
  | named (name : Name) : Derives .type [name.ident] ⟨.named name.node, name.span⟩ 0
  | reference (sign : Span) {mark tokens : Tokens} {target : Spanned Ty} {height : Nat}
      (isMutable : Bool) (marked : Marks .mut_ isMutable mark)
      (derived : Derives .subtype tokens target height) :
      Derives .type (⟨.symbol .ampersand, sign⟩ :: (mark ++ tokens))
        ⟨if isMutable then .mutableReference target.node else .reference target.node,
          sign.merge target.span⟩ height
  | arrayType (start semicolon span stop : Span) {digits : String} {length : UInt64}
      (read : readUInt64? digits = some length) {tokens : Tokens} {element : Spanned Ty}
      {height : Nat} (derived : Derives .subtype tokens element height) :
      Derives .type
        (⟨.symbol .leftBracket, start⟩ :: (tokens ++ [⟨.symbol .semicolon, semicolon⟩,
          ⟨.int digits, span⟩, ⟨.symbol .rightBracket, stop⟩]))
        ⟨.array element.node length, start.merge stop⟩ height
  | refined (base : Primitive) (refinable : base.isRefinable = true) (start open_ stop : Span)
      {tokens : Tokens} (constraints : List (Part (Spanned Expr)))
      (row : Commas (constraints.map Part.tokens) tokens)
      (derived : ∀ part ∈ constraints, Derives .subexpr part.tokens part.value part.height) :
      Derives .type
        (⟨.keyword base.word, start⟩ :: ⟨.symbol .leftBrace, open_⟩ ::
          (tokens ++ [⟨.symbol .rightBrace, stop⟩]))
        ⟨.refined base (constraints.map Part.value), start.merge stop⟩
        (highest (constraints.map Part.height))

end ContractSyntax
