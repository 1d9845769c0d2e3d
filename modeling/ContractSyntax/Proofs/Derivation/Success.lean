/-
**What successful runs pass.**

`Yields parser cursor meaning` says of every successful run from a cursor that `meaning` relates the
tokens it passes to its value, its height and the cursor it reaches. The lemmas follow the way
parsers are put together: a statement about a parser becomes one about what is left to run, after
the tokens that have been passed so far.

* `Yields.bind`: parsers in a row pass the tokens of one after those of the other;
* `Yields.list`: a list passes a row of phrases and the closing symbol.
-/

import ContractSyntax.Proofs.Derivation.Basic
import ContractSyntax.Parser.Combinator

namespace ContractSyntax

namespace Cursor

theorem current?_eq_some_iff {cursor : Cursor} {token : Token} :
    cursor.current? = some token ↔
      ∃ span rest, cursor.remaining = ⟨token, span⟩ :: rest := by
  unfold current?
  cases cursor.remaining with
  | nil => simp
  | cons first rest =>
    rcases first with ⟨node, span⟩
    simp

theorem span_of_cons {cursor : Cursor} {token : Spanned Token} {rest : Tokens}
    (remaining : cursor.remaining = token :: rest) : cursor.span = token.span := by
  simp only [span, remaining]

@[simp] theorem span_note (cursor : Cursor) (event : Event) : (cursor.note event).span = cursor.span :=
  rfl

/-- Going past the token at the cursor passes it. -/
theorem passes_advance {cursor : Cursor} {token : Token} (current : cursor.current? = some token) :
    Passes [⟨token, cursor.span⟩] cursor cursor.advance := by
  obtain ⟨span, rest, remaining⟩ := current?_eq_some_iff.mp current
  rw [advance_of_cons remaining, span_of_cons remaining]
  exact ⟨by simpa using remaining, rfl, rfl, rfl⟩

end Cursor

namespace Parser

variable {α β : Type}

/-- Every successful run from the cursor passes tokens of the stated meaning. -/
def Yields (parser : Parser α) (cursor : Cursor) (meaning : Tokens → α → Nat → Cursor → Prop) :
    Prop :=
  ∀ room value height after, parser.run room cursor = .done value height after →
    ∃ tokens, Cursor.Passes tokens cursor after ∧ meaning tokens value height after

namespace Yields

variable {meaning : Tokens → β → Nat → Cursor → Prop} {cursor : Cursor}

theorem mono {parser : Parser β} {weaker : Tokens → β → Nat → Cursor → Prop}
    (yields : parser.Yields cursor meaning)
    (implies : ∀ tokens value height after, meaning tokens value height after →
      weaker tokens value height after) : parser.Yields cursor weaker := by
  intro room value height after ran
  obtain ⟨tokens, passed, holds⟩ := yields room value height after ran
  exact ⟨tokens, passed, implies _ _ _ _ holds⟩

/-! ### Parsers in a row -/

protected theorem pure {value : β} (holds : meaning [] value 0 cursor) :
    (pure value : Parser β).Yields cursor meaning := by
  intro room _ _ _ ran
  cases ran
  exact ⟨[], Cursor.passes_nil cursor, holds⟩

theorem bind {parser : Parser α} {next : α → Parser β}
    {first : Tokens → α → Nat → Cursor → Prop} (yields : parser.Yields cursor first)
    (continued : ∀ passed value height middle, Cursor.Passes passed cursor middle →
      first passed value height middle →
      (next value).Yields middle fun tokens result more after =>
        meaning (passed ++ tokens) result (max height more) after) :
    (parser >>= next).Yields cursor meaning := by
  intro room result height after ran
  obtain ⟨value, low, middle, more, ranFirst, ranNext, rfl⟩ := bind_eq_done ran
  obtain ⟨passed, passes, holds⟩ := yields room value low middle ranFirst
  obtain ⟨tokens, later, holds⟩ := continued passed value low middle passes holds _ _ _ _ ranNext
  exact ⟨passed ++ tokens, passes.trans later, holds⟩

/-- A parser at the end passes all that is passed. -/
theorem last {parser : Parser α} {result : α → β} {first : Tokens → α → Nat → Cursor → Prop}
    (yields : parser.Yields cursor first)
    (implies : ∀ tokens value height after, first tokens value height after →
      meaning tokens (result value) height after) :
    (parser >>= fun value => pure (result value)).Yields cursor meaning := by
  refine bind yields fun passed value height middle _ holds => .pure ?_
  simpa using implies _ _ _ _ holds

/-- A parser that opens no level and passes nothing adds nothing to the meaning. -/
theorem silent {parser : Parser α} {next : α → Parser β} {found : α} {middle : Cursor}
    (passes : Cursor.Passes [] cursor middle)
    (ran : ∀ room, parser.run room cursor = .done found 0 middle)
    (continued : (next found).Yields middle meaning) : (parser >>= next).Yields cursor meaning := by
  have found : parser.Yields cursor fun passed value height after =>
      passed = [] ∧ value = found ∧ height = 0 ∧ after = middle := by
    intro room value height after done
    rw [ran] at done
    cases done
    exact ⟨[], passes, rfl, rfl, rfl, rfl⟩
  refine bind found ?_
  rintro passed value height after _ ⟨rfl, rfl, rfl, rfl⟩
  simpa using continued

/-! ### Looking -/

theorem current {next : Option Token → Parser β}
    (continued : (next cursor.current?).Yields cursor meaning) :
    (Parser.current >>= next).Yields cursor meaning :=
  silent (Cursor.passes_nil cursor) (fun _ => rfl) continued

theorem second {next : Option Token → Parser β}
    (continued : (next cursor.second?).Yields cursor meaning) :
    (Parser.second >>= next).Yields cursor meaning :=
  silent (Cursor.passes_nil cursor) (fun _ => rfl) continued

theorem here {next : Span → Parser β} (continued : (next cursor.span).Yields cursor meaning) :
    (Parser.here >>= next).Yields cursor meaning :=
  silent (Cursor.passes_nil cursor) (fun _ => rfl) continued

theorem lastStop {next : Nat → Parser β} (continued : (next cursor.lastStop).Yields cursor meaning) :
    (Parser.lastStop >>= next).Yields cursor meaning :=
  silent (Cursor.passes_nil cursor) (fun _ => rfl) continued

theorem note {event : Event} {next : Unit → Parser β}
    (continued : (next ()).Yields (cursor.note event) meaning) :
    (Parser.note event >>= next).Yields cursor meaning :=
  have passes : Cursor.Passes [] cursor (cursor.note event) := ⟨rfl, rfl, rfl, rfl⟩
  silent passes (fun _ => rfl) continued

/-! ### Passing one token -/

theorem pass {token : Token} {next : Span → Parser β} (here : cursor.current? = some token)
    (continued : ∀ span middle, Cursor.Passes [⟨token, span⟩] cursor middle →
      (next span).Yields middle fun tokens result height after =>
        meaning (⟨token, span⟩ :: tokens) result height after) :
    (Parser.pass >>= next).Yields cursor meaning := by
  have found : Parser.pass.Yields cursor fun passed span height _ =>
      passed = [⟨token, span⟩] ∧ height = 0 := by
    intro room span height after ran
    cases ran
    exact ⟨_, Cursor.passes_advance here, rfl, rfl⟩
  refine bind found ?_
  rintro passed span height middle passes ⟨rfl, rfl⟩
  simpa using continued span middle passes

protected theorem fail {cause : Cause} : (Parser.fail cause : Parser β).Yields cursor meaning := by
  intro room value height after ran
  cases ran

theorem failWith {error : SyntaxError} :
    (Parser.failWith error : Parser β).Yields cursor meaning := by
  intro room value height after ran
  cases ran

theorem expected {token : Token} :
    (Parser.expect token).Yields cursor fun passed span height _ =>
      passed = [⟨token, span⟩] ∧ height = 0 := by
  refine current ?_
  split
  · next here =>
    intro room span height after ran
    cases ran
    exact ⟨_, Cursor.passes_advance here, rfl, rfl⟩
  · exact .fail

theorem expect {token : Token} {next : Span → Parser β}
    (continued : ∀ span middle, Cursor.Passes [⟨token, span⟩] cursor middle →
      (next span).Yields middle fun tokens result height after =>
        meaning (⟨token, span⟩ :: tokens) result height after) :
    (Parser.expect token >>= next).Yields cursor meaning := by
  refine bind expected ?_
  rintro passed span height middle passes ⟨rfl, rfl⟩
  simpa using continued span middle passes

/-- A token that may stand at the cursor is passed if it does. -/
theorem accepted {token : Token} :
    (Parser.accept token).Yields cursor fun passed found height after =>
      (∃ span, found = some span ∧ passed = [⟨token, span⟩] ∧ height = 0) ∨
        (cursor.current? ≠ some token ∧ found = none ∧ passed = [] ∧ height = 0 ∧
          after = cursor) := by
  refine current ?_
  split
  · next here =>
    refine pass here fun span middle passes => .pure ?_
    exact .inl ⟨span, rfl, rfl, rfl⟩
  · next other => exact .pure (.inr ⟨other, rfl, rfl, rfl, rfl⟩)

theorem accept {token : Token} {next : Option Span → Parser β}
    (taken : ∀ span middle, Cursor.Passes [⟨token, span⟩] cursor middle →
      (next (some span)).Yields middle fun tokens result height after =>
        meaning (⟨token, span⟩ :: tokens) result height after)
    (left : cursor.current? ≠ some token → (next none).Yields cursor meaning) :
    (Parser.accept token >>= next).Yields cursor meaning := by
  refine bind accepted ?_
  rintro passed found height middle passes (⟨span, rfl, rfl, rfl⟩ | ⟨other, rfl, rfl, rfl, rfl⟩)
  · simpa using taken span middle passes
  · simpa using left other

theorem ident {role : NameRole} :
    (Parser.name role).Yields cursor fun passed name height _ =>
      passed = [name.ident] ∧ height = 0 := by
  refine current ?_
  split
  · next text here => exact pass here fun span middle passes => .pure ⟨rfl, rfl⟩
  · exact .fail

theorem name {role : NameRole} {next : Name → Parser β}
    (continued : ∀ (name : Name) middle, Cursor.Passes [name.ident] cursor middle →
      (next name).Yields middle fun tokens result height after =>
        meaning (name.ident :: tokens) result height after) :
    (Parser.name role >>= next).Yields cursor meaning := by
  refine bind ident ?_
  rintro passed name height middle passes ⟨rfl, rfl⟩
  simpa using continued name middle passes

/-- A name and the token after it are passed if both are there. -/
theorem namedBefore {token : Token} :
    (Parser.nameBefore token).Yields cursor fun passed found height after =>
      (∃ (name : Name) (span : Span), found = some name ∧ passed = [name.ident, ⟨token, span⟩] ∧
        height = 0) ∨ (found = none ∧ passed = [] ∧ height = 0 ∧ after = cursor) := by
  refine current ?_
  split
  · next text here =>
    refine second ?_
    split
    · next following =>
      refine pass here fun place middle passed => ?_
      have current : middle.current? = some token := by
        have remaining := passed.remaining
        rw [Cursor.second?, remaining] at following
        exact following
      refine pass current fun span last passes => .pure ?_
      exact .inl ⟨⟨text, place⟩, span, rfl, rfl, rfl⟩
    · exact .pure (.inr ⟨rfl, rfl, rfl, rfl⟩)
  · exact .pure (.inr ⟨rfl, rfl, rfl, rfl⟩)

theorem nameBefore {token : Token} {next : Option Name → Parser β}
    (taken : ∀ (name : Name) span middle, Cursor.Passes [name.ident, ⟨token, span⟩] cursor middle →
      (next (some name)).Yields middle fun tokens result height after =>
        meaning (name.ident :: ⟨token, span⟩ :: tokens) result height after)
    (left : (next none).Yields cursor meaning) :
    (Parser.nameBefore token >>= next).Yields cursor meaning := by
  refine bind namedBefore ?_
  rintro passed found height middle passes
    (⟨name, span, rfl, rfl, rfl⟩ | ⟨rfl, rfl, rfl, rfl⟩)
  · simpa using taken name span middle passes
  · simpa using left

/-! ### Nesting -/

theorem nested {parser : Parser β} {deeper : Tokens → β → Nat → Cursor → Prop}
    (yields : parser.Yields cursor deeper)
    (implies : ∀ tokens value height after, deeper tokens value height after →
      meaning tokens value (height + 1) after) : (Parser.nested parser).Yields cursor meaning := by
  intro room value height after ran
  cases room with
  | zero => cases ran
  | succ room =>
    simp only [Parser.nested] at ran
    cases ranInner : parser.run room cursor with
    | failed error stop => simp [ranInner] at ran
    | done result depth stop =>
      simp only [ranInner, Outcome.done.injEq] at ran
      obtain ⟨rfl, rfl, rfl⟩ := ran
      obtain ⟨tokens, passes, holds⟩ := yields _ _ _ _ ranInner
      exact ⟨tokens, passes, implies _ _ _ _ holds⟩

end Yields

end Parser

end ContractSyntax
