/-
**Where a run fails, and what it has passed by then.**

`Fails parser cursor begun` says of every run from a cursor that fails: the tokens before the one that
does not fit have been passed, and `begun` holds of them. A parser `Follows` a row of elements if what
it passes spells the row when it succeeds, and begins it when it fails. The lemmas follow the way
parsers are put together, so that a parser is taken along the row of its rule element by element.

* `SyntaxError.IsAt`: which token an error is about;
* `Stopped`: where a run fails, which is at that token, or behind it for the length of an array;
* `Fails.bind`, `Fails.row`: parsers in a row, told by what they pass or by the row they follow;
* `Fails.enter`, `Fails.under`: from a rule to the category that it is about.
-/

import ContractSyntax.Proofs.Language.Beginning

namespace ContractSyntax

/-- Whether the error is about the token with an index, or about the end of the input behind all
tokens. -/
structure SyntaxError.IsAt (error : SyntaxError) (size : Nat) (tokens : Tokens) (index : Nat) :
    Prop where
  within : index ≤ tokens.length
  found : error.found = tokens[index]?.map Spanned.node
  span : error.span = (tokens[index]?.map Spanned.span).getD (.point size)

theorem Cursor.Passes.isAt {size : Nat} {tokens before : Tokens} {place : Cursor}
    (passes : Passes before (.start size tokens) place) (cause : Cause) :
    (place.error cause).IsAt size tokens before.length := by
  have whole : tokens = before ++ place.remaining := passes.remaining
  have next : tokens[before.length]? = place.remaining.head? := by
    rw [whole, List.getElem?_append_right (Nat.le_refl _), Nat.sub_self, List.head?_eq_getElem?]
  refine ⟨?_, ?_, ?_⟩
  · rw [whole, List.length_append]
    exact Nat.le_add_right _ _
  · rw [next]
    rfl
  · rw [next]
    show place.span = _
    have ended : place.endOffset = size := passes.endOffset
    unfold Cursor.span
    cases place.remaining with
    | nil => rw [ended]; rfl
    | cons first rest => rfl

/-- How a run from the cursor fails, where `begun` holds of the tokens before the error. -/
inductive Stopped (cursor : Cursor) (begun : List Token → Prop) : SyntaxError → Cursor → Prop
  /-- At the token that does not fit. -/
  | here (cause : Cause) {before : Tokens} {place : Cursor}
      (passes : Cursor.Passes before cursor place) (begins : begun (nodes before)) :
      Stopped cursor begun (place.error cause) place
  /-- Behind the length of an array, where a length in range could have stood. -/
  | behind {digits : String} {before : Tokens} {place : Cursor}
      (passes : Cursor.Passes before cursor place) (current : place.current? = some (.int digits))
      (begins : begun (nodes before ++ [.int "0"])) :
      Stopped cursor begun (place.error (.lengthRange digits)) place.advance

namespace Stopped

variable {cursor middle after : Cursor} {begun weaker : List Token → Prop} {error : SyntaxError}

theorem mono (stopped : Stopped cursor begun error after)
    (implies : ∀ tokens, begun tokens → weaker tokens) : Stopped cursor weaker error after := by
  cases stopped with
  | here cause passes begins => exact .here cause passes (implies _ begins)
  | behind passes current begins => exact .behind passes current (implies _ begins)

/-- A run that fails after some tokens have been passed. -/
theorem later {passed : Tokens} (passes : Cursor.Passes passed cursor middle)
    (stopped : Stopped middle (fun tokens => begun (nodes passed ++ tokens)) error after) :
    Stopped cursor begun error after := by
  cases stopped with
  | here cause further begins =>
    exact .here cause (passes.trans further) (by simpa [nodes] using begins)
  | behind further current begins =>
    exact .behind (passes.trans further) current (by simpa [nodes] using begins)

end Stopped

namespace Parser

variable {α β : Type}

/-- Every run from the cursor that fails has passed what `begun` holds of. -/
def Fails (parser : Parser α) (cursor : Cursor) (begun : List Token → Prop) : Prop :=
  ∀ room error after, parser.run room cursor = .failed error after →
    Stopped cursor begun error after

/-- Every run from the cursor passes tokens for a row of elements: all of it if the run succeeds, and
the beginning of it if the run fails. -/
structure Follows (parser : Parser α) (cursor : Cursor) (elements : List Element) : Prop where
  spells : parser.Yields cursor fun tokens _ _ _ => Spells elements (nodes tokens)
  fails : parser.Fails cursor (Starts elements)

namespace Fails

variable {parser : Parser β} {cursor : Cursor} {begun : List Token → Prop}

theorem mono {weaker : List Token → Prop} (fails : parser.Fails cursor begun)
    (implies : ∀ tokens, begun tokens → weaker tokens) : parser.Fails cursor weaker :=
  fun _ _ _ ran => (fails _ _ _ ran).mono implies

/-! ### Parsers in a row -/

protected theorem pure {value : β} : (pure value : Parser β).Fails cursor begun := by
  intro room error after ran
  cases ran

theorem bind {parser : Parser α} {next : α → Parser β}
    {first : Tokens → α → Nat → Cursor → Prop} (fails : parser.Fails cursor begun)
    (yields : parser.Yields cursor first)
    (continued : ∀ passed value height middle, Cursor.Passes passed cursor middle →
      first passed value height middle →
      (next value).Fails middle fun tokens => begun (nodes passed ++ tokens)) :
    (parser >>= next).Fails cursor begun := by
  intro room error after ran
  rw [run_bind] at ran
  cases ranFirst : parser.run room cursor with
  | failed found place =>
    rw [ranFirst] at ran
    cases ran
    exact fails _ _ _ ranFirst
  | done value height middle =>
    obtain ⟨passed, passes, holds⟩ := yields _ _ _ _ ranFirst
    cases ranNext : (next value).run room middle with
    | done result more last =>
      simp only [ranFirst, ranNext, Outcome.above] at ran
      cases ran
    | failed found place =>
      simp only [ranFirst, ranNext, Outcome.above, Outcome.failed.injEq] at ran
      obtain ⟨rfl, rfl⟩ := ran
      exact .later passes (continued passed value height middle passes holds _ _ _ ranNext)

/-- A parser after which nothing can fail. -/
theorem last {parser : Parser α} {next : α → Parser β} (fails : parser.Fails cursor begun)
    (never : ∀ value middle begun, (next value).Fails middle begun) :
    (parser >>= next).Fails cursor begun := by
  have yields : parser.Yields cursor fun _ _ _ _ => True := by
    intro room value height after ran
    obtain ⟨tokens, passes⟩ := parser.forward room cursor
    rw [ran] at passes
    exact ⟨tokens, passes, trivial⟩
  exact bind fails yields fun _ value _ middle _ _ => never value middle _

/-- A parser that never fails and passes nothing. -/
theorem silent {parser : Parser α} {next : α → Parser β} {found : α} {middle : Cursor}
    (passes : Cursor.Passes [] cursor middle)
    (ran : ∀ room, parser.run room cursor = .done found 0 middle)
    (continued : (next found).Fails middle begun) : (parser >>= next).Fails cursor begun := by
  intro room error after failed
  rw [run_bind, ran] at failed
  cases ranNext : (next found).run room middle with
  | done result more last =>
    simp only [ranNext, Outcome.above] at failed
    cases failed
  | failed found place =>
    simp only [ranNext, Outcome.above, Outcome.failed.injEq] at failed
    obtain ⟨rfl, rfl⟩ := failed
    exact .later passes (continued _ _ _ ranNext)

/-! ### Looking -/

theorem current {next : Option Token → Parser β}
    (continued : (next cursor.current?).Fails cursor begun) :
    (Parser.current >>= next).Fails cursor begun :=
  silent (Cursor.passes_nil cursor) (fun _ => rfl) continued

theorem second {next : Option Token → Parser β}
    (continued : (next cursor.second?).Fails cursor begun) :
    (Parser.second >>= next).Fails cursor begun :=
  silent (Cursor.passes_nil cursor) (fun _ => rfl) continued

theorem here {next : Span → Parser β} (continued : (next cursor.span).Fails cursor begun) :
    (Parser.here >>= next).Fails cursor begun :=
  silent (Cursor.passes_nil cursor) (fun _ => rfl) continued

theorem lastStop {next : Nat → Parser β} (continued : (next cursor.lastStop).Fails cursor begun) :
    (Parser.lastStop >>= next).Fails cursor begun :=
  silent (Cursor.passes_nil cursor) (fun _ => rfl) continued

theorem note {event : Event} {next : Unit → Parser β}
    (continued : (next ()).Fails (cursor.note event) begun) :
    (Parser.note event >>= next).Fails cursor begun :=
  have passes : Cursor.Passes [] cursor (cursor.note event) := ⟨rfl, rfl, rfl, rfl⟩
  silent passes (fun _ => rfl) continued

/-! ### Passing one token -/

protected theorem fail {cause : Cause} (begins : begun []) :
    (Parser.fail cause : Parser β).Fails cursor begun := by
  intro room error after ran
  cases ran
  exact .here cause (Cursor.passes_nil cursor) begins

theorem pass {token : Token} {next : Span → Parser β} (here : cursor.current? = some token)
    (continued : ∀ span middle, (next span).Fails middle fun tokens => begun (token :: tokens)) :
    (Parser.pass >>= next).Fails cursor begun := by
  have found : Parser.pass.Yields cursor fun passed _ _ _ => nodes passed = [token] := by
    intro room span height after ran
    cases ran
    exact ⟨_, Cursor.passes_advance here, rfl⟩
  have never : Parser.pass.Fails cursor begun := by
    intro room error after ran
    cases ran
  refine bind never found fun passed span height middle _ same => ?_
  rw [same]
  exact continued span middle

/-- A token that has to stand at the cursor, told by what has been passed. -/
theorem someToken {token : Token} {next : Span → Parser β} (begins : begun [])
    (continued : ∀ span middle, (next span).Fails middle fun tokens => begun (token :: tokens)) :
    (Parser.expect token >>= next).Fails cursor begun := by
  have fails : (Parser.expect token).Fails cursor begun := by
    refine current ?_
    split
    · intro room error after ran
      cases ran
    · exact .fail begins
  refine bind fails Yields.expected fun passed span height middle _ holds => ?_
  rw [holds.1]
  exact continued span middle

/-- A name that has to stand at the cursor, told by what has been passed. -/
theorem ident {role : NameRole} (begins : begun []) : (Parser.name role).Fails cursor begun := by
  refine current ?_
  split
  · next here => exact pass here fun _ _ => .pure
  · exact .fail begins

theorem someName {role : NameRole} {next : Name → Parser β} (begins : begun [])
    (continued : ∀ (name : Name) middle,
      (next name).Fails middle fun tokens => begun (.ident name.node :: tokens)) :
    (Parser.name role >>= next).Fails cursor begun := by
  refine bind (ident begins) Yields.ident fun passed name height middle _ holds => ?_
  rw [holds.1]
  exact continued name middle

theorem accept {token : Token} {next : Option Span → Parser β}
    (taken : ∀ span middle, (next (some span)).Fails middle fun tokens => begun (token :: tokens))
    (left : cursor.current? ≠ some token → (next none).Fails cursor begun) :
    (Parser.accept token >>= next).Fails cursor begun := by
  have never : (Parser.accept token).Fails cursor begun := by
    refine current ?_
    split
    · next here => exact pass here fun _ _ => .pure
    · exact .pure
  refine bind never .accepted ?_
  rintro passed found height middle _ (⟨span, rfl, rfl, rfl⟩ | ⟨other, rfl, rfl, rfl, rfl⟩)
  · exact taken span middle
  · exact left other

theorem namedBefore {token : Token} : (Parser.nameBefore token).Fails cursor begun := by
  refine current ?_
  split
  · next here =>
    refine second ?_
    split
    · exact pass here fun _ _ => .last (by intro room error after ran; cases ran) fun _ _ _ => .pure
    · exact .pure
  · exact .pure

theorem nameBefore {token : Token} {next : Option Name → Parser β}
    (taken : ∀ (name : Name) middle,
      (next (some name)).Fails middle fun tokens => begun (.ident name.node :: token :: tokens))
    (left : (next none).Fails cursor begun) :
    (Parser.nameBefore token >>= next).Fails cursor begun := by
  refine bind namedBefore .namedBefore ?_
  rintro passed found height middle _ (⟨name, span, rfl, rfl, rfl⟩ | ⟨rfl, rfl, rfl, rfl⟩)
  · exact taken name middle
  · exact left

/-- A literal that is out of range has not been passed. -/
theorem literalValue {value? : Option α} {cause : Cause} {next : α → Parser β} (begins : begun [])
    (continued : ∀ value, value? = some value → (next value).Fails cursor begun) :
    (Parser.literalValue value? cause >>= next).Fails cursor begun := by
  cases value? with
  | none =>
    intro room error after ran
    cases ran
    exact .here cause (Cursor.passes_nil cursor) begins
  | some value => exact silent (Cursor.passes_nil cursor) (fun _ => rfl) (continued value rfl)

/-! ### Nesting -/

theorem nested (fails : parser.Fails cursor begun) (begins : begun []) :
    (Parser.nested parser).Fails cursor begun := by
  intro room error after ran
  cases room with
  | zero =>
    cases ran
    exact .here .tooDeep (Cursor.passes_nil cursor) begins
  | succ room =>
    simp only [Parser.nested] at ran
    cases ranInner : parser.run room cursor with
    | done value height place => simp [ranInner] at ran
    | failed found place =>
      simp only [ranInner, Outcome.failed.injEq] at ran
      obtain ⟨rfl, rfl⟩ := ran
      exact fails _ _ _ ranInner

/-! ### Along the row of a rule -/

section Rows

variable {category : Category} {front back : List Element}

/-- A parser that follows the first part of a row, and one for the rest of the row. -/
theorem row {parser : Parser α} {next : α → Parser β} (follows : parser.Follows cursor front)
    (continued : ∀ value middle, (next value).Fails middle (Starts back)) :
    (parser >>= next).Fails cursor (Starts (front ++ back)) := by
  refine bind (follows.fails.mono fun tokens begun => begun.append back) follows.spells ?_
  intro passed value height middle _ spelled
  exact (continued value middle).mono fun tokens begun => spelled.starts begun

theorem expect {token : Token} {next : Span → Parser β}
    (continued : ∀ span middle, (next span).Fails middle (Starts back)) :
    (Parser.expect token >>= next).Fails cursor (Starts (.token token :: back)) :=
  someToken (.stop _) fun span middle => (continued span middle).mono fun _ begun => .token _ begun

theorem name {role : NameRole} {next : Name → Parser β}
    (continued : ∀ name middle, (next name).Fails middle (Starts back)) :
    (Parser.name role >>= next).Fails cursor (Starts (.of .name :: back)) :=
  someName (.stop _) fun name middle => (continued name middle).mono fun _ begun =>
    (Sentence.name _).begins begun

/-- A parser that begins a rule begins its category. -/
theorem enter {body : List Element} (rule : Rule category body)
    (fails : parser.Fails cursor (Starts body)) : parser.Fails cursor (Starts (.of category :: back)) :=
  fails.mono fun _ begun => .within rule begun

/-- A parser for the rest of a rule, after its first token. -/
theorem under {token : Token} {body : List Element} (rule : Rule category (.token token :: body))
    (fails : parser.Fails cursor (Starts body)) :
    parser.Fails cursor fun tokens => Starts (.of category :: back) (token :: tokens) :=
  fails.mono fun _ begun => .within rule (.token token begun)

end Rows

end Fails

theorem Follows.ident {role : NameRole} {cursor : Cursor} :
    (Parser.name role).Follows cursor [.of .name] where
  spells := Yields.ident.mono fun tokens name height after holds => by
    rw [holds.1]
    exact (Sentence.name _).last
  fails := .ident (.stop _)

end Parser

end ContractSyntax
