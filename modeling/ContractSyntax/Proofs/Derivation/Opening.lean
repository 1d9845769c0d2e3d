/-
**How phrases begin, and what may follow them.**

The parsers choose by the token at the cursor, and twice by the one after it. So it has to be known
with which tokens each kind of phrase begins, and which tokens would go on with an operand that was
thought to be complete.

* `Derives.opened`: every phrase begins with a token of its kind, and where that token is a name,
  the next token of the phrase goes on with it.
-/

import ContractSyntax.Proofs.Derivation.Basic

namespace ContractSyntax

/-! ### Kinds of tokens -/

namespace Token

/-- Whether the token goes on with an operand before it. -/
def isSuffix : Token → Bool
  | symbol .leftParen | symbol .colonColon | symbol .dot | symbol .leftBracket => true
  | _ => false

/-- Whether the token goes on with an expression before it. -/
def isContinuation (token : Token) : Bool :=
  token.isSuffix || (BinaryOperator.ofToken? token).isSome

/-- Whether an operand may begin with the token. -/
def opensOperand : Token → Bool
  | int digits => (readInt64? digits).isSome
  | float digits => (readBinary64? digits).isSome
  | string _ | ident _ => true
  | keyword .true_ | keyword .false_ | keyword .ret | keyword .it | keyword .new => true
  | symbol .leftParen | symbol .leftBracket => true
  | _ => false

/-- Whether an operand with the operators before it may begin with the token. -/
def opensSigned : Token → Bool
  | symbol .minus | symbol .star | symbol .ampersand | keyword .not_ => true
  | token => token.opensOperand

/-- Whether an expression may begin with the token. -/
def opensExpr : Token → Bool
  | keyword .if_ | keyword .let_ | keyword .match_ | keyword .while_ | keyword .for_ => true
  | symbol .leftBrace => true
  | token => token.opensSigned

/-- Whether a type may begin with the token. -/
def opensType : Token → Bool
  | keyword word => (Primitive.ofWord? word).isSome
  | symbol .ampersand | symbol .leftBracket | symbol .leftParen => true
  | ident _ => true
  | _ => false

theorem opensSigned_of_opensOperand {token : Token} (opens : token.opensOperand = true) :
    token.opensSigned = true := by
  unfold opensSigned
  split <;> first | rfl | exact opens

theorem opensExpr_of_opensSigned {token : Token} (opens : token.opensSigned = true) :
    token.opensExpr = true := by
  unfold opensExpr
  split <;> first | rfl | exact opens

end Token

/-! ### The first tokens of a phrase -/

/-- The tokens begin with one of the kind stated; if it is a name, the next of them goes on with
it. -/
def Opens (kind : Token → Bool) (tokens : Tokens) : Prop :=
  ∃ token others, tokens = token :: others ∧ kind token.node = true ∧
    ∀ text, token.node = .ident text → ∀ next, others.head?.map Spanned.node = some next →
      next.isContinuation = true

namespace Opens

variable {kind : Token → Bool} {tokens : Tokens}

theorem mono {wider : Token → Bool} (opens : Opens kind tokens)
    (implies : ∀ token, kind token = true → wider token = true) : Opens wider tokens := by
  obtain ⟨token, others, rfl, first, continued⟩ := opens
  exact ⟨token, others, rfl, implies _ first, continued⟩

/-- What goes on with the tokens does so even if they are a name alone. -/
theorem append {more : Tokens} (opens : Opens kind tokens)
    (goes : ∀ next, more.head?.map Spanned.node = some next → next.isContinuation = true) :
    Opens kind (tokens ++ more) := by
  obtain ⟨token, others, rfl, first, continued⟩ := opens
  refine ⟨token, others ++ more, rfl, first, fun text name next here => ?_⟩
  cases others with
  | nil => exact goes next here
  | cons second rest => exact continued text name next here

theorem cons_append {token : Token} {span : Span} {more : Tokens} (opens : Opens kind tokens)
    (goes : token.isContinuation = true) : Opens kind (tokens ++ ⟨token, span⟩ :: more) := by
  refine opens.append fun next here => ?_
  obtain rfl := Option.some.inj here
  exact goes

/-- A token that is no name may be followed by anything. -/
theorem cons {token : Token} {span : Span} {others : Tokens} (first : kind token = true)
    (other : ∀ text, token ≠ .ident text) : Opens kind (⟨token, span⟩ :: others) :=
  ⟨_, _, rfl, first, fun text same => absurd same (other text)⟩

theorem name {name : Name} {others : Tokens} (first : kind (.ident name.node) = true)
    (goes : ∀ next, others.head?.map Spanned.node = some next → next.isContinuation = true) :
    Opens kind (name.ident :: others) :=
  ⟨_, _, rfl, first, fun _ _ => goes⟩

/-- A token that neither goes on with an expression nor follows the phrase does not follow a name at
its beginning. -/
theorem second_ne {rest : Tokens} {token : Token} {text : String} (opens : Opens kind tokens)
    (ends : token.isContinuation = false) (other : rest.head?.map Spanned.node ≠ some token)
    (first : (tokens ++ rest).head?.map Spanned.node = some (.ident text)) :
    (tokens ++ rest).tail.head?.map Spanned.node ≠ some token := by
  obtain ⟨token', others, rfl, _, continued⟩ := opens
  intro here
  cases others with
  | nil => exact other here
  | cons second more =>
    have goes := continued text (Option.some.inj first) token here
    rw [ends] at goes
    cases goes

/-- The first token is of the kind, whatever follows. -/
theorem head {rest : Tokens} {token : Token} (opens : Opens kind tokens)
    (other : kind token = false) : (tokens ++ rest).head?.map Spanned.node ≠ some token := by
  obtain ⟨first, others, rfl, holds, _⟩ := opens
  intro here
  obtain rfl := Option.some.inj here
  rw [other] at holds
  cases holds

end Opens

/-- How a phrase begins. -/
def Phrase.Opened : Phrase → Tokens → Prop
  | expr, tokens | subexpr, tokens => Opens Token.opensExpr tokens
  | tier _, tokens | signed, tokens => Opens Token.opensSigned tokens
  | suffixed, tokens | primary, tokens => Opens Token.opensOperand tokens
  | type, tokens | subtype, tokens => Opens Token.opensType tokens
  | field, tokens | arm, tokens =>
    ∃ token others, tokens = token :: others ∧ token.node ≠ .symbol .rightBrace
  | stated, _ | binding _, _ | rest _ _, _ | items _, _ => True

theorem Pattern.Derives.opened {tokens : Tokens} {pattern : Spanned Pattern}
    (derived : Pattern.Derives tokens pattern) :
    ∃ token others, tokens = token :: others ∧ token.node ≠ .symbol .rightBrace := by
  cases derived <;> exact ⟨_, _, rfl, nofun⟩

/-- Every phrase begins with a token of its kind. -/
theorem Derives.opened {phrase : Phrase} {tokens : Tokens} {tree : phrase.Tree} {height : Nat}
    (derived : Derives phrase tokens tree height) : phrase.Opened tokens := by
  induction derived with
  | int read => exact .cons (by simp [Token.opensOperand, read]) nofun
  | float read => exact .cons (by simp [Token.opensOperand, read]) nofun
  | string | true | false | ret | it | unit | paren | array | construct => exact .cons rfl nofun
  | var => exact .name rfl nofun
  | call | variant | variantOf => exact .name rfl fun next here => by cases here; rfl
  | field => exact ⟨_, _, rfl, nofun⟩
  | operand _ opens => exact opens
  | state _ _ _ _ opens | member _ _ _ opens | methodCall _ _ _ _ _ _ _ _ opens
  | index _ _ _ _ opens => exact opens.cons_append rfl
  | unsigned _ opens => exact opens.mono fun _ => Token.opensSigned_of_opensOperand
  | least => exact .cons rfl nofun
  | unary operator first others spelled =>
    obtain ⟨node, span⟩ := first
    cases operator <;> (obtain ⟨rfl, _⟩ := List.cons.inj spelled; exact .cons rfl nofun)
  | single _ _ opens => exact opens
  | binary operator _ span _ _ opens =>
    exact opens.cons_append (by simp [Token.isContinuation, BinaryOperator.ofToken?_token])
  | nested _ opens => exact opens
  | operators _ opens => exact opens.mono fun _ => Token.opensExpr_of_opensSigned
  | conditional | binding | matching | whileLoop | forLoop | block => exact .cons rfl nofun
  | arm _ pattern => 
    obtain ⟨token, others, rfl, other⟩ := pattern.opened
    exact ⟨token, _, rfl, other⟩
  | nothing | value | bound | statement | assign | bindingRest | lone | remainder | unstated
  | stated => trivial
  | nestedType _ opens => exact opens
  | primitive | refined =>
    exact .cons (by simp [Token.opensType, Primitive.ofWord?_word]) nofun
  | unitType | reference | arrayType => exact .cons rfl nofun
  | named => exact .name rfl nofun

/-! ### What may follow a phrase -/

/-- The rest does not go on with an expression. -/
def EndsExpr (rest : Tokens) : Prop :=
  ∀ next, rest.head?.map Spanned.node = some next → next.isContinuation = false

/-- The rest does not go on with an operand. -/
def EndsOperand (rest : Tokens) : Prop :=
  ∀ next, rest.head?.map Spanned.node = some next → next.isSuffix = false

/-- The rest does not go on with an operand, nor does it bind more tightly than stated. -/
def EndsTier (power : Nat) (rest : Tokens) : Prop :=
  EndsOperand rest ∧ ∀ operator,
    (rest.head?.map Spanned.node).bind BinaryOperator.ofToken? = some operator →
      operator.power ≤ power

/-- The rest does not turn a name into a call or a variant. -/
def EndsName (rest : Tokens) : Prop :=
  rest.head?.map Spanned.node ≠ some (.symbol .leftParen) ∧
    rest.head?.map Spanned.node ≠ some (.symbol .colonColon)

/-- The rest does not refine a type. -/
def EndsType (rest : Tokens) : Prop := rest.head?.map Spanned.node ≠ some (.symbol .leftBrace)

/-- The next token is a comma or the closing symbol. -/
def Listed (close : Symbol) (rest : Tokens) : Prop :=
  rest.head?.map Spanned.node = some (.symbol .comma) ∨
    rest.head?.map Spanned.node = some (.symbol close)

/-- The rest begins with the brace that closes a block, at the stated offset. -/
def ClosesBlock (next : Nat) (rest : Tokens) : Prop :=
  ∃ stop others, rest = ⟨.symbol .rightBrace, ⟨next, stop⟩⟩ :: others

variable {rest : Tokens}

theorem EndsExpr.cons {token : Token} {span : Span} {others : Tokens}
    (ends : token.isContinuation = false) : EndsExpr (⟨token, span⟩ :: others) := by
  rintro next ⟨⟩
  exact ends

theorem EndsExpr.ofListed {close : Symbol} (ends : (Token.symbol close).isContinuation = false)
    (listed : Listed close rest) : EndsExpr rest := by
  intro next here
  rcases listed with comma | closes
  · rw [comma] at here
    cases here
    rfl
  · rw [closes] at here
    cases here
    exact ends

theorem EndsExpr.operand (ends : EndsExpr rest) : EndsOperand rest :=
  fun next here => (Bool.or_eq_false_iff.mp (ends next here)).1

theorem EndsExpr.infix_eq_none (ends : EndsExpr rest) :
    (rest.head?.map Spanned.node).bind BinaryOperator.ofToken? = none := by
  cases here : rest.head?.map Spanned.node with
  | none => rfl
  | some next => simpa [Token.isContinuation] using (Bool.or_eq_false_iff.mp (ends next here)).2

theorem EndsOperand.name (ends : EndsOperand rest) : EndsName rest :=
  ⟨fun here => absurd (ends _ here) nofun, fun here => absurd (ends _ here) nofun⟩

theorem EndsName.cons {token : Token} {span : Span} {others : Tokens}
    (parenthesis : token ≠ .symbol .leftParen) (colons : token ≠ .symbol .colonColon) :
    EndsName (⟨token, span⟩ :: others) :=
  ⟨fun here => parenthesis (Option.some.inj here), fun here => colons (Option.some.inj here)⟩

theorem EndsTier.operator {operator : BinaryOperator} {span : Span} {others : Tokens} :
    EndsTier operator.power (⟨operator.token, span⟩ :: others) := by
  refine ⟨?_, fun other here => ?_⟩
  · rintro next ⟨⟩
    cases operator <;> rfl
  · have found := (BinaryOperator.ofToken?_token operator).symm.trans here
    exact Nat.le_of_eq (congrArg BinaryOperator.power (Option.some.inj found)).symm

theorem EndsTier.mono {power wider : Nat} (ends : EndsTier power rest) (le : power ≤ wider) :
    EndsTier wider rest :=
  ⟨ends.1, fun operator here => Nat.le_trans (ends.2 operator here) le⟩

theorem EndsExpr.tier (ends : EndsExpr rest) (power : Nat) : EndsTier power rest :=
  ⟨ends.operand, fun operator here => by rw [ends.infix_eq_none] at here; cases here⟩

end ContractSyntax
