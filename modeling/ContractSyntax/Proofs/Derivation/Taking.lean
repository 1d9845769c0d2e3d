/-
**Runs that have to succeed.**

`parser.Takes tokens rest value height room` says that a run in some room, from any cursor that
stands before the tokens and then the rest, passes exactly the tokens and comes to the value, if the
height fits into the room; and that otherwise it fails for want of room, and for no other reason. So
the height is not a bound but the exact number of levels that a run needs.

* `Takes.bind`: parsers in a row take the tokens of one after those of the other;
* `Takes.nested`: a level more needs one more level of room;
* `Chaining.link`: a chain takes one link after the other, each at a level above all before it;
* `Takes.list`: a list takes a row of phrases and the closing symbol.
-/

import ContractSyntax.Grammar.Pattern
import ContractSyntax.Proofs.Derivation.Success

namespace ContractSyntax

namespace Outcome

variable {α : Type}

/-- The run stopped since a level more did not fit. -/
def IsTooDeep (outcome : Outcome α) : Prop :=
  ∃ error after, outcome = failed error after ∧ error.cause = .tooDeep

theorem IsTooDeep.above {outcome : Outcome α} (height : Nat) (deep : outcome.IsTooDeep) :
    (outcome.above height).IsTooDeep := by
  obtain ⟨error, after, rfl, cause⟩ := deep
  exact ⟨error, after, rfl, cause⟩

end Outcome

namespace Cursor

theorem current?_of_remaining {cursor : Cursor} {tokens : Tokens}
    (remaining : cursor.remaining = tokens) :
    cursor.current? = tokens.head?.map Spanned.node := by
  rw [current?, remaining]

theorem Passes.remaining_eq {cursor after : Cursor} {tokens rest : Tokens}
    (passes : Passes tokens cursor after) (remaining : cursor.remaining = tokens ++ rest) :
    after.remaining = rest :=
  List.append_cancel_left (passes.remaining.symm.trans remaining)

/-- Going past the first of the tokens that remain passes it. -/
theorem passes_of_cons {cursor : Cursor} {token : Spanned Token} {rest : Tokens}
    (remaining : cursor.remaining = token :: rest) : Passes [token] cursor cursor.advance := by
  rw [advance_of_cons remaining]
  exact ⟨by simpa using remaining, rfl, rfl, rfl⟩

end Cursor

namespace Parser

variable {α β : Type}

/-- The run from a cursor passes the tokens and comes to the value, if there is room. -/
def TakesAt (parser : Parser α) (cursor : Cursor) (tokens : Tokens) (value : α)
    (height room : Nat) : Prop :=
  (height ≤ room ∧ ∃ after, Cursor.Passes tokens cursor after ∧
    parser.run room cursor = .done value height after) ∨
  (room < height ∧ (parser.run room cursor).IsTooDeep)

/-- Every run from a cursor before the tokens and the rest passes the tokens and comes to the value,
if there is room. -/
def Takes (parser : Parser α) (tokens rest : Tokens) (value : α) (height room : Nat) : Prop :=
  ∀ cursor : Cursor, cursor.remaining = tokens ++ rest →
    parser.TakesAt cursor tokens value height room

theorem TakesAt.bind {parser : Parser α} {next : α → Parser β} {cursor : Cursor}
    {first second : Tokens} {value : α} {result : β} {height depth room : Nat}
    (taken : parser.TakesAt cursor first value height room)
    (continued : ∀ after, Cursor.Passes first cursor after →
      (next value).TakesAt after second result depth room) :
    (parser >>= next).TakesAt cursor (first ++ second) result (max height depth) room := by
  unfold TakesAt
  rw [run_bind]
  rcases taken with ⟨fits, middle, passes, ran⟩ | ⟨large, error, after, ran, cause⟩
  · rw [ran]
    rcases continued middle passes with ⟨fits', after, later, ran'⟩ | ⟨large, deep⟩
    · refine .inl ⟨Nat.max_le.mpr ⟨fits, fits'⟩, after, passes.trans later, ?_⟩
      simp only [ran', Outcome.above]
    · exact .inr ⟨Nat.lt_of_lt_of_le large (Nat.le_max_right _ _), deep.above height⟩
  · rw [ran]
    exact .inr ⟨Nat.lt_of_lt_of_le large (Nat.le_max_left _ _), error, after, rfl, cause⟩

theorem TakesAt.pure {value : α} {cursor : Cursor} {room : Nat} :
    (Pure.pure value : Parser α).TakesAt cursor [] value 0 room :=
  .inl ⟨Nat.zero_le _, cursor, Cursor.passes_nil cursor, rfl⟩

theorem TakesAt.here {cursor : Cursor} {room : Nat} :
    Parser.here.TakesAt cursor [] cursor.span 0 room :=
  .inl ⟨Nat.zero_le _, cursor, Cursor.passes_nil cursor, rfl⟩

theorem TakesAt.lastStop {cursor : Cursor} {room : Nat} :
    Parser.lastStop.TakesAt cursor [] cursor.lastStop 0 room :=
  .inl ⟨Nat.zero_le _, cursor, Cursor.passes_nil cursor, rfl⟩

/-- A parser that passes nothing does so at any cursor. -/
theorem TakesAt.ofTakes {parser : Parser α} {cursor : Cursor} {value : α} {height room : Nat}
    (taken : parser.Takes [] cursor.remaining value height room) :
    parser.TakesAt cursor [] value height room :=
  taken cursor rfl

namespace Takes

variable {tokens rest : Tokens} {result : β} {height room : Nat}

/-! ### Parsers in a row -/

/-- What a parser takes, one that runs like it takes too. -/
theorem ofRun {parser other : Parser β} (same : other.run = parser.run)
    (taken : parser.Takes tokens rest result height room) :
    other.Takes tokens rest result height room := by
  intro cursor remaining
  unfold TakesAt
  rw [same]
  exact taken cursor remaining

theorem ofHeight {parser : Parser β} {other : Nat}
    (taken : parser.Takes tokens rest result height room) (same : height = other) :
    parser.Takes tokens rest result other room :=
  same ▸ taken

protected theorem pure {value : β} : (pure value : Parser β).Takes [] rest value 0 room :=
  fun _ _ => .pure

theorem bind {parser : Parser α} {next : α → Parser β} {first : Tokens} {value : α} {low : Nat}
    (taken : parser.Takes first (tokens ++ rest) value low room)
    (continued : (next value).Takes tokens rest result height room) :
    (parser >>= next).Takes (first ++ tokens) rest result (max low height) room := by
  intro cursor remaining
  rw [List.append_assoc] at remaining
  exact (taken cursor remaining).bind fun after passes =>
    continued after (passes.remaining_eq remaining)

/-- What passes nothing after a parser leaves all tokens to it. -/
theorem last {parser : Parser α} {next : α → Parser β} {value : α}
    (taken : parser.Takes tokens rest value height room)
    (continued : (next value).Takes [] rest result 0 room) :
    (parser >>= next).Takes tokens rest result height room := by
  have both := bind (by simpa using taken) continued
  simpa using both

/-- A parser that opens no level adds nothing to the height. -/
theorem flat {parser : Parser α} {next : α → Parser β} {first : Tokens} {value : α}
    (taken : parser.Takes first (tokens ++ rest) value 0 room)
    (continued : (next value).Takes tokens rest result height room) :
    (parser >>= next).Takes (first ++ tokens) rest result height room := by
  simpa using bind taken continued

/-- What opens no level after a parser adds nothing to the height. -/
theorem lead {parser : Parser α} {next : α → Parser β} {first : Tokens} {value : α}
    (taken : parser.Takes first (tokens ++ rest) value height room)
    (continued : (next value).Takes tokens rest result 0 room) :
    (parser >>= next).Takes (first ++ tokens) rest result height room :=
  ofHeight (bind taken continued) (Nat.max_zero height)

/-! ### Looking -/

theorem current {next : Option Token → Parser β}
    (continued : (next ((tokens ++ rest).head?.map Spanned.node)).Takes tokens rest result height
      room) : (Parser.current >>= next).Takes tokens rest result height room := by
  have looked : Parser.current.Takes [] (tokens ++ rest)
      ((tokens ++ rest).head?.map Spanned.node) 0 room := by
    intro cursor remaining
    refine .inl ⟨Nat.zero_le _, cursor, Cursor.passes_nil cursor, ?_⟩
    simp only [Parser.current, look, Cursor.current?, remaining, List.nil_append]
  exact flat looked continued

theorem second {next : Option Token → Parser β}
    (continued : (next ((tokens ++ rest).tail.head?.map Spanned.node)).Takes tokens rest result
      height room) : (Parser.second >>= next).Takes tokens rest result height room := by
  have looked : Parser.second.Takes [] (tokens ++ rest)
      ((tokens ++ rest).tail.head?.map Spanned.node) 0 room := by
    intro cursor remaining
    refine .inl ⟨Nat.zero_le _, cursor, Cursor.passes_nil cursor, ?_⟩
    simp only [Parser.second, look, Cursor.second?, remaining, List.nil_append]
  exact flat looked continued

theorem here {span : Span} {next : Span → Parser β}
    (start : ∀ cursor : Cursor, cursor.remaining = tokens ++ rest → cursor.span = span)
    (continued : (next span).Takes tokens rest result height room) :
    (Parser.here >>= next).Takes tokens rest result height room := by
  have looked : Parser.here.Takes [] (tokens ++ rest) span 0 room :=
    fun cursor remaining => start cursor remaining ▸ .here
  exact flat looked continued

theorem note {event : Event} {next : Unit → Parser β}
    (continued : (next ()).Takes tokens rest result height room) :
    (Parser.note event >>= next).Takes tokens rest result height room := by
  have noted : (Parser.note event).Takes [] (tokens ++ rest) () 0 room :=
    fun cursor _ => .inl ⟨Nat.zero_le _, cursor.note event, ⟨rfl, rfl, rfl, rfl⟩, rfl⟩
  exact flat noted continued

/-! ### Passing tokens -/

theorem passed {token : Spanned Token} :
    Parser.pass.Takes [token] rest token.span 0 room := by
  intro cursor remaining
  refine .inl ⟨Nat.zero_le _, cursor.advance, Cursor.passes_of_cons remaining, ?_⟩
  simp only [Parser.pass, Cursor.span_of_cons remaining]

theorem pass {token : Spanned Token} {next : Span → Parser β}
    (continued : (next token.span).Takes tokens rest result height room) :
    (Parser.pass >>= next).Takes (token :: tokens) rest result height room :=
  flat passed continued

theorem expected {token : Token} {span : Span} :
    (Parser.expect token).Takes [⟨token, span⟩] rest span 0 room := by
  refine current ?_
  simp only [List.cons_append, List.head?_cons, Option.map_some, if_true]
  exact passed

theorem expect {token : Token} {span : Span} {next : Span → Parser β}
    (continued : (next span).Takes tokens rest result height room) :
    (Parser.expect token >>= next).Takes (⟨token, span⟩ :: tokens) rest result height room :=
  flat expected continued

/-- After a token has been passed, the cursor knows where it stopped. -/
theorem expectAt {token : Token} {span : Span} {next : Span → Parser β}
    (continued : ∀ cursor : Cursor, cursor.remaining = tokens ++ rest →
      cursor.lastStop = span.stop → (next span).TakesAt cursor tokens result height room) :
    (Parser.expect token >>= next).Takes (⟨token, span⟩ :: tokens) rest result height room := by
  intro cursor remaining
  have both : (Parser.expect token >>= next).TakesAt cursor ([⟨token, span⟩] ++ tokens) result
      (max 0 height) room :=
    (expected cursor remaining).bind fun after passes =>
      continued after (passes.remaining_eq remaining) passes.lastStop
  simpa using both

theorem accept {token : Token} {span : Span} {next : Option Span → Parser β}
    (continued : (next (some span)).Takes tokens rest result height room) :
    (Parser.accept token >>= next).Takes (⟨token, span⟩ :: tokens) rest result height room := by
  have taken : (Parser.accept token).Takes [⟨token, span⟩] (tokens ++ rest) (some span) 0 room := by
    refine current ?_
    simp only [List.cons_append, List.head?_cons, Option.map_some, if_true]
    exact last passed Takes.pure
  exact flat taken continued

/-- An optional token is left out where another token stands. -/
theorem acceptNone {token : Token} {next : Option Span → Parser β}
    (other : (tokens ++ rest).head?.map Spanned.node ≠ some token)
    (continued : (next none).Takes tokens rest result height room) :
    (Parser.accept token >>= next).Takes tokens rest result height room := by
  have left : (Parser.accept token).Takes [] (tokens ++ rest) none 0 room := by
    refine current ?_
    rw [List.nil_append, if_neg other]
    exact Takes.pure
  exact flat left continued

theorem literalValue {value? : Option α} {value : α} {cause : Cause} {next : α → Parser β}
    (found : value? = some value)
    (continued : (next value).Takes tokens rest result height room) :
    (Parser.literalValue value? cause >>= next).Takes tokens rest result height room := by
  subst found
  exact flat Takes.pure continued

theorem named {role : NameRole} {name : Name} :
    (Parser.name role).Takes [name.ident] rest name 0 room :=
  current (last passed Takes.pure)

theorem name {role : NameRole} {name : Name} {next : Name → Parser β}
    (continued : (next name).Takes tokens rest result height room) :
    (Parser.name role >>= next).Takes (name.ident :: tokens) rest result height room :=
  flat named continued

theorem nameBefore {token : Token} {name : Name} {span : Span} {next : Option Name → Parser β}
    (continued : (next (some name)).Takes tokens rest result height room) :
    (Parser.nameBefore token >>= next).Takes (name.ident :: ⟨token, span⟩ :: tokens) rest result
      height room := by
  have taken : (Parser.nameBefore token).Takes [name.ident, ⟨token, span⟩] (tokens ++ rest)
      (some name) 0 room := by
    refine current (second ?_)
    simp only [List.cons_append, List.tail_cons, List.head?_cons, Option.map_some, if_true]
    exact pass (pass Takes.pure)
  exact flat taken continued

/-- A name before a token is left out where another token follows the name. -/
theorem nameBeforeNone {token : Token} {next : Option Name → Parser β}
    (other : ∀ text, (tokens ++ rest).head?.map Spanned.node = some (.ident text) →
      (tokens ++ rest).tail.head?.map Spanned.node ≠ some token)
    (continued : (next none).Takes tokens rest result height room) :
    (Parser.nameBefore token >>= next).Takes tokens rest result height room := by
  have left : (Parser.nameBefore token).Takes [] (tokens ++ rest) none 0 room := by
    refine current ?_
    rw [List.nil_append]
    split
    · next text here =>
      refine second ?_
      rw [List.nil_append, if_neg (other text here)]
      exact Takes.pure
    · exact Takes.pure
  exact flat left continued

/-! ### Nesting -/

theorem nested {parser : Parser β}
    (taken : ∀ smaller, smaller + 1 = room → parser.Takes tokens rest result height smaller) :
    (Parser.nested parser).Takes tokens rest result (height + 1) room := by
  intro cursor remaining
  cases room with
  | zero => exact .inr ⟨Nat.zero_lt_succ _, cursor.error .tooDeep, cursor, rfl, rfl⟩
  | succ room =>
    rcases taken room rfl cursor remaining with ⟨fits, after, passes, ran⟩ | ⟨large, deep⟩
    · refine .inl ⟨Nat.succ_le_succ fits, after, passes, ?_⟩
      simp only [Parser.nested, ran]
    · obtain ⟨error, after, ran, cause⟩ := deep
      refine .inr ⟨Nat.succ_lt_succ large, error, after, ?_, cause⟩
      simp only [Parser.nested, ran]

end Takes

end Parser

end ContractSyntax
