/-
**Runs that have to fail.**

`parser.Rejects tokens error height room` says that a run in some room, from any cursor that stands
before the tokens, stops with the error if there is room for what is read before it, whose height is
stated; and that otherwise it fails for want of room. It goes with `Takes`: a row of parsers rejects
tokens if one of them does, behind what those before it take.

* `Rejects.behind`, `Rejects.first`: parsers in a row;
* `Rejects.nested`, `Rejects.chain`: a level deeper, and the first operand of a chain;
* `readAll_rejected`: a text that is rejected is not read, and why.
-/

import ContractSyntax.Proofs.Reading

namespace ContractSyntax

namespace Parser

variable {α β : Type}

/-- Every run from a cursor before the tokens stops with the error, if there is room. -/
def Rejects (parser : Parser α) (tokens : Tokens) (error : SyntaxError) (height room : Nat) : Prop :=
  ∀ cursor : Cursor, cursor.remaining = tokens →
    (height ≤ room ∧ ∃ after, parser.run room cursor = .failed error after) ∨
    (room < height ∧ (parser.run room cursor).IsTooDeep)

namespace Rejects

variable {tokens : Tokens} {error : SyntaxError} {height room : Nat}

/-! ### Parsers in a row -/

/-- A parser that rejects the tokens, whatever comes after it. -/
theorem first {parser : Parser α} {next : α → Parser β}
    (rejects : parser.Rejects tokens error height room) :
    (parser >>= next).Rejects tokens error height room := by
  intro cursor remaining
  rw [run_bind]
  rcases rejects cursor remaining with ⟨fits, after, ran⟩ | ⟨large, found, after, ran, cause⟩
  · rw [ran]
    exact .inl ⟨fits, after, rfl⟩
  · rw [ran]
    exact .inr ⟨large, found, after, rfl, cause⟩

/-- A parser that rejects what is behind the tokens that another takes. -/
theorem behind {parser : Parser α} {next : α → Parser β} {taken : Tokens} {value : α} {low : Nat}
    (takes : parser.Takes taken tokens value low room)
    (rejects : (next value).Rejects tokens error height room) :
    (parser >>= next).Rejects (taken ++ tokens) error (max low height) room := by
  intro cursor remaining
  rw [run_bind]
  rcases takes cursor remaining with ⟨fits, middle, passes, ran⟩ | ⟨large, found, after, ran, cause⟩
  · rw [ran]
    rcases rejects middle (passes.remaining_eq remaining) with ⟨fits', after, ran'⟩ | ⟨large, deep⟩
    · exact .inl ⟨Nat.max_le.mpr ⟨fits, fits'⟩, after, by simp only [ran', Outcome.above]⟩
    · exact .inr ⟨Nat.lt_of_lt_of_le large (Nat.le_max_right _ _), deep.above low⟩
  · rw [ran]
    exact .inr ⟨Nat.lt_of_lt_of_le large (Nat.le_max_left _ _), found, after, rfl, cause⟩

/-- Behind a parser that opens no level. -/
theorem flat {parser : Parser α} {next : α → Parser β} {taken : Tokens} {value : α}
    (takes : parser.Takes taken tokens value 0 room)
    (rejects : (next value).Rejects tokens error height room) :
    (parser >>= next).Rejects (taken ++ tokens) error height room := by
  simpa using behind takes rejects

theorem current {next : Option Token → Parser β}
    (rejects : (next (tokens.head?.map Spanned.node)).Rejects tokens error height room) :
    (Parser.current >>= next).Rejects tokens error height room := by
  have looked : Parser.current.Takes [] tokens (tokens.head?.map Spanned.node) 0 room := by
    intro cursor remaining
    refine .inl ⟨Nat.zero_le _, cursor, Cursor.passes_nil cursor, ?_⟩
    simp only [Parser.current, look, Cursor.current?, remaining, List.nil_append]
  exact flat looked rejects

theorem pass {token : Spanned Token} {next : Span → Parser β}
    (rejects : (next token.span).Rejects tokens error height room) :
    (Parser.pass >>= next).Rejects (token :: tokens) error height room :=
  flat Takes.passed rejects

theorem expect {token : Token} {span : Span} {next : Span → Parser β}
    (rejects : (next span).Rejects tokens error height room) :
    (Parser.expect token >>= next).Rejects (⟨token, span⟩ :: tokens) error height room :=
  flat Takes.expected rejects

/-! ### Failing -/

theorem failWith : (Parser.failWith error : Parser α).Rejects tokens error 0 room :=
  fun cursor _ => .inl ⟨Nat.zero_le _, cursor, rfl⟩

theorem fail {place : Spanned Token} {cause : Cause} :
    (Parser.fail cause : Parser α).Rejects (place :: tokens) ⟨cause, some place.node, place.span⟩ 0
      room := by
  intro cursor remaining
  refine .inl ⟨Nat.zero_le _, cursor, ?_⟩
  have found : cursor.error cause = ⟨cause, some place.node, place.span⟩ := by
    simp only [Cursor.error, Cursor.current?, Cursor.span, remaining, List.head?_cons, Option.map_some]
  exact congrArg (Outcome.failed · cursor) found

/-- A literal without a value is about the token at the cursor. -/
theorem literalValue {place : Spanned Token} {value? : Option α} {cause : Cause}
    (none : value? = none) :
    (Parser.literalValue value? cause).Rejects (place :: tokens)
      ⟨cause, some place.node, place.span⟩ 0 room := by
  subst none
  exact fail

/-! ### Nesting and chains -/

theorem nested {parser : Parser α}
    (rejects : ∀ smaller, smaller + 1 = room → parser.Rejects tokens error height smaller) :
    (Parser.nested parser).Rejects tokens error (height + 1) room := by
  intro cursor remaining
  cases room with
  | zero => exact .inr ⟨Nat.zero_lt_succ _, cursor.error .tooDeep, cursor, rfl, rfl⟩
  | succ room =>
    rcases rejects room rfl cursor remaining with ⟨fits, after, ran⟩ | ⟨large, found, after, ran, cause⟩
    · exact .inl ⟨Nat.succ_le_succ fits, after, by simp only [Parser.nested, ran]⟩
    · exact .inr ⟨Nat.succ_lt_succ large, found, after, by simp only [Parser.nested, ran], cause⟩

/-- A chain does not begin without its first operand. -/
theorem chain {operand : Parser α} {link? : Token → Option (α → Parser α)}
    (rejects : operand.Rejects tokens error height room) :
    (Parser.chain operand link?).Rejects tokens error height room := by
  intro cursor remaining
  rcases rejects cursor remaining with ⟨fits, after, ran⟩ | ⟨large, found, after, ran, cause⟩
  · exact .inl ⟨fits, after, by simp only [Parser.chain, ran]⟩
  · exact .inr ⟨large, found, after, by simp only [Parser.chain, ran], cause⟩

end Rejects

end Parser

/-- A text whose tokens are rejected is not read, and why. -/
theorem readAll_rejected {α : Type} {parser : Parser α} {source : String} {tokens : Tokens}
    {error : SyntaxError} {height : Nat} (lexed : tokenize source = .ok tokens)
    (rejects : parser.Rejects tokens error height nestingLimit) :
    (height ≤ nestingLimit ∧ (readAll parser source).value = .error (.syntactic error)) ∨
    (nestingLimit < height ∧ ∃ error, (readAll parser source).value = .error (.syntactic error) ∧
      error.message = "nesting deeper than 256 levels") := by
  obtain ⟨cursor, rfl, read⟩ := @readAll_value _ parser _ _ lexed
  rw [read]
  have whole : parser.whole.Rejects cursor.remaining error height nestingLimit := rejects.first
  rcases whole cursor rfl with ⟨fits, after, ran⟩ | ⟨large, deep⟩
  · refine .inl ⟨fits, ?_⟩
    rw [Parser.start_eq, ran]
    rfl
  · obtain ⟨found, started, message⟩ := Parser.isTooDeepAt deep
    exact .inr ⟨large, found, by rw [started]; rfl, message⟩

end ContractSyntax
