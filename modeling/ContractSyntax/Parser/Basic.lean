/-
**Parsers: steps from one cursor to a later one.**

A parser is run with counters that keep the nesting within its limit. The same run can be told
without them: it runs with some *room*, the number of levels that may still be opened below the one
it runs at, and if it succeeds it tells its *height*, the number of levels that it did open. Both are
relative to the run, so nothing about nesting is left behind by it. That the two ways to run a parser
agree, and that the cursor only moves on, is part of the type.

* `Parser.run_bind`: parsers in a row run from where the one before stopped, in the same room, and
  are as high as the highest of them;
* `Parser.Advances.bind_left`, `Parser.Advances.bind_right`: a row passes a token if one part does.
-/

import ContractSyntax.Parser.Cursor
import ContractSyntax.Parser.Nesting

namespace ContractSyntax

/-- How a run ends. -/
inductive Outcome (α : Type) where
  | done (value : α) (height : Nat) (cursor : Cursor)
  | failed (error : SyntaxError) (cursor : Cursor)

namespace Outcome

/-- Where the run stopped. -/
def cursor {α : Type} : Outcome α → Cursor
  | done _ _ cursor => cursor
  | failed _ cursor => cursor

/-- The outcome of a run that follows one of a given height. -/
def above {α : Type} (height : Nat) : Outcome α → Outcome α
  | done value more cursor => done value (max height more) cursor
  | failed error cursor => failed error cursor

@[simp] theorem cursor_above {α : Type} (height : Nat) (outcome : Outcome α) :
    (outcome.above height).cursor = outcome.cursor := by
  cases outcome <;> rfl

end Outcome

/-- How a run with counters ends. -/
structure Counted (α : Type) where
  result : Except SyntaxError α
  nesting : Nesting
  cursor : Cursor

/-- The end of a part, with the counters behind it. -/
def Counted.behind {α : Type} (outer : Nesting) (inner : Counted α) : Counted α :=
  { inner with nesting := outer.behind inner.nesting }

/-- Whether a run with counters ends as a run without them does, and leaves the counters as its
height says. -/
inductive Outcome.Matches {α : Type} (before : Nesting) : Outcome α → Counted α → Prop where
  | done {value : α} {height : Nat} {cursor : Cursor} {after : Nesting}
      (climbs : before.Climbs height after) :
      Matches before (.done value height cursor) ⟨.ok value, after, cursor⟩
  | failed {error : SyntaxError} {cursor : Cursor} {after : Nesting}
      (settles : before.Settles after) :
      Matches before (.failed error cursor) ⟨.error error, after, cursor⟩

/-- A run that follows one of a given height. -/
theorem Outcome.Matches.follows {α : Type} {before middle : Nesting} {height : Nat}
    {outcome : Outcome α} {counted : Counted α} (second : outcome.Matches middle counted)
    (first : before.Climbs height middle) : (outcome.above height).Matches before counted := by
  cases second with
  | done climbs => exact .done (first.trans climbs)
  | failed settles => exact .failed (first.toSettles.trans settles)

/-- A step from one cursor to a later one. -/
structure Parser (α : Type) where
  /-- The run with counters. -/
  count : Nesting → Cursor → Counted α
  /-- The run in some room. -/
  run : (room : Nat) → Cursor → Outcome α
  forward : ∀ (room : Nat) (cursor : Cursor), cursor.Reaches (run room cursor).cursor
  agrees : ∀ (nesting : Nesting) (cursor : Cursor),
    (run (nestingLimit - nesting.depth) cursor).Matches nesting (count nesting cursor)

namespace Parser

variable {α β : Type}

/-! ### Parsers in a row -/

/-- The parser that passes nothing. -/
@[always_inline, inline] protected def pure (value : α) : Parser α where
  count nesting cursor := ⟨.ok value, nesting, cursor⟩
  run _ cursor := .done value 0 cursor
  forward _ cursor := .refl cursor
  agrees nesting _ := .done (.refl nesting)

/-- One parser, and then another that depends on its value. -/
@[always_inline, inline] protected def bind (parser : Parser α) (next : α → Parser β) :
    Parser β where
  count nesting cursor :=
    match parser.count nesting cursor with
    | ⟨.ok value, nesting, cursor⟩ => (next value).count nesting cursor
    | ⟨.error error, nesting, cursor⟩ => ⟨.error error, nesting, cursor⟩
  run room cursor :=
    match parser.run room cursor with
    | .done value height cursor => ((next value).run room cursor).above height
    | .failed error cursor => .failed error cursor
  forward room cursor := by
    have first := parser.forward room cursor
    generalize parser.run room cursor = outcome at first
    cases outcome with
    | done value height middle =>
      simp only [Outcome.cursor_above]
      exact first.trans ((next value).forward room middle)
    | failed error middle => exact first
  agrees nesting cursor := by
    have first := parser.agrees nesting cursor
    generalize parser.run (nestingLimit - nesting.depth) cursor = outcome,
      parser.count nesting cursor = counted at first
    cases first with
    | @done value height middle after climbs =>
      have second := (next value).agrees after middle
      rw [climbs.depth] at second
      exact second.follows climbs
    | failed settles => exact .failed settles

instance : Monad Parser where
  pure := Parser.pure
  bind := Parser.bind

theorem run_pure (value : α) (room : Nat) (cursor : Cursor) :
    (pure value : Parser α).run room cursor = .done value 0 cursor := rfl

theorem run_bind (parser : Parser α) (next : α → Parser β) (room : Nat) (cursor : Cursor) :
    (parser >>= next).run room cursor =
      match parser.run room cursor with
      | .done value height cursor => ((next value).run room cursor).above height
      | .failed error cursor => .failed error cursor := rfl

/-! ### Looking and passing -/

/-- Tells something about the cursor. -/
@[inline] def look (found : Cursor → α) : Parser α where
  count nesting cursor := ⟨.ok (found cursor), nesting, cursor⟩
  run _ cursor := .done (found cursor) 0 cursor
  forward _ cursor := .refl cursor
  agrees nesting _ := .done (.refl nesting)

/-- The token at the cursor. -/
@[inline] def current : Parser (Option Token) := look Cursor.current?

/-- The token after the one at the cursor. -/
@[inline] def second : Parser (Option Token) := look Cursor.second?

/-- The span of the token at the cursor. -/
@[inline] def here : Parser Span := look Cursor.span

/-- Where the token passed last ended. -/
@[inline] def lastStop : Parser Nat := look Cursor.lastStop

/-- Notes an event. -/
@[inline] def note (event : Event) : Parser Unit where
  count nesting cursor := ⟨.ok (), nesting, cursor.note event⟩
  run _ cursor := .done () 0 (cursor.note event)
  forward _ cursor := cursor.reaches_note event
  agrees nesting _ := .done (.refl nesting)

/-- Passes the token at the cursor and tells its span. -/
@[inline] def pass : Parser Span where
  count nesting cursor := ⟨.ok cursor.span, nesting, cursor.advance⟩
  run _ cursor := .done cursor.span 0 cursor.advance
  forward _ cursor := cursor.reaches_advance
  agrees nesting _ := .done (.refl nesting)

/-- Fails with an error found at the cursor. -/
@[inline] def failAt (error : Cursor → SyntaxError) : Parser α where
  count nesting cursor := ⟨.error (error cursor), nesting, cursor⟩
  run _ cursor := .failed (error cursor) cursor
  forward _ cursor := .refl cursor
  agrees nesting _ := .failed (.refl nesting)

/-- Fails since the token at the cursor does not fit. -/
@[inline] def fail (cause : Cause) : Parser α := failAt fun cursor => cursor.error cause

/-- Fails with an error found before. -/
@[inline] def failWith (error : SyntaxError) : Parser α := failAt fun _ => error

/-- Passes a token if it is the one at the cursor. -/
def accept (token : Token) : Parser (Option Span) := do
  if (← current) = some token then return some (← pass) else return none

/-- Passes a token, which has to be the one at the cursor. -/
def expect (token : Token) : Parser Span := do
  if (← current) = some token then pass else fail (.unexpected [.token token])

/-- Passes a symbol, which has to be at the cursor. -/
abbrev symbol (symbol : Symbol) : Parser Span := expect (.symbol symbol)

/-- Passes a reserved word, which has to be at the cursor. -/
abbrev keyword (word : Keyword) : Parser Span := expect (.keyword word)

/-- Passes a name, which has to be at the cursor. -/
def name (role : NameRole) : Parser Name := do
  match ← current with
  | some (.ident text) => return ⟨text, ← pass⟩
  | _ => fail (.unexpected [.name role])

/-- Passes a name and the token after it, if both are there. -/
def nameBefore (token : Token) : Parser (Option Name) := do
  match ← current with
  | some (.ident text) =>
    if (← second) = some token then
      let place ← pass
      let _ ← pass
      return some ⟨text, place⟩
    else return none
  | _ => return none

/-! ### Parsers that pass a token -/

/-- Every run that succeeds passes a token. -/
def Advances (parser : Parser α) : Prop :=
  ∀ room cursor value height after, parser.run room cursor = .done value height after →
    after.remaining.length < cursor.remaining.length

theorem reaches_of_done {parser : Parser α} {room : Nat} {cursor after : Cursor} {value : α}
    {height : Nat} (ran : parser.run room cursor = .done value height after) :
    cursor.Reaches after := by
  have reached := parser.forward room cursor
  rwa [ran] at reached

theorem reaches_of_failed {parser : Parser α} {room : Nat} {cursor after : Cursor}
    {error : SyntaxError} (ran : parser.run room cursor = .failed error after) :
    cursor.Reaches after := by
  have reached := parser.forward room cursor
  rwa [ran] at reached

/-- No more tokens remain after a run than before it. -/
theorem length_le {parser : Parser α} {room : Nat} {cursor after : Cursor} {value : α}
    {height : Nat} (ran : parser.run room cursor = .done value height after) :
    after.remaining.length ≤ cursor.remaining.length :=
  (reaches_of_done ran).length_le

/-- A run with counters that succeeds is one without them. -/
theorem run_of_count {parser : Parser α} {nesting later : Nesting} {cursor after : Cursor} {value : α}
    (ran : parser.count nesting cursor = ⟨.ok value, later, after⟩) :
    ∃ height, parser.run (nestingLimit - nesting.depth) cursor = .done value height after ∧
      nesting.Climbs height later := by
  have same := parser.agrees nesting cursor
  rw [ran] at same
  generalize parser.run (nestingLimit - nesting.depth) cursor = outcome at same
  cases same with
  | done climbs => exact ⟨_, rfl, climbs⟩

theorem length_le_of_count {parser : Parser α} {nesting later : Nesting} {cursor after : Cursor}
    {value : α} (ran : parser.count nesting cursor = ⟨.ok value, later, after⟩) :
    after.remaining.length ≤ cursor.remaining.length := by
  obtain ⟨_, same, _⟩ := run_of_count ran
  exact length_le same

/-- A run with counters that fails is one without them. -/
theorem run_of_count_error {parser : Parser α} {nesting later : Nesting} {cursor after : Cursor}
    {error : SyntaxError} (ran : parser.count nesting cursor = ⟨.error error, later, after⟩) :
    parser.run (nestingLimit - nesting.depth) cursor = .failed error after ∧
      nesting.Settles later := by
  have same := parser.agrees nesting cursor
  rw [ran] at same
  generalize parser.run (nestingLimit - nesting.depth) cursor = outcome at same
  cases same with
  | failed settles => exact ⟨rfl, settles⟩

/-- A run of two parsers in a row that succeeds is a run of each. -/
theorem bind_eq_done {parser : Parser α} {next : α → Parser β} {room : Nat}
    {cursor after : Cursor} {result : β} {height : Nat}
    (ran : (parser >>= next).run room cursor = .done result height after) :
    ∃ value first middle second, parser.run room cursor = .done value first middle ∧
      (next value).run room middle = .done result second after ∧ height = max first second := by
  rw [run_bind] at ran
  cases ranFirst : parser.run room cursor with
  | done value first middle =>
    rw [ranFirst] at ran
    cases ranNext : (next value).run room middle with
    | done result' second last =>
      simp only [ranNext, Outcome.above, Outcome.done.injEq] at ran
      obtain ⟨rfl, rfl, rfl⟩ := ran
      exact ⟨value, first, middle, second, rfl, ranNext, rfl⟩
    | failed error last =>
      simp only [ranNext, Outcome.above] at ran
      cases ran
  | failed error last =>
    rw [ranFirst] at ran
    cases ran

namespace Advances

theorem count {parser : Parser α} (advances : parser.Advances) {nesting later : Nesting}
    {cursor after : Cursor} {value : α}
    (ran : parser.count nesting cursor = ⟨.ok value, later, after⟩) :
    after.remaining.length < cursor.remaining.length := by
  obtain ⟨_, same, _⟩ := run_of_count ran
  exact advances _ _ _ _ _ same

theorem bind_left {parser : Parser α} {next : α → Parser β} (advances : parser.Advances) :
    (parser >>= next).Advances := by
  intro room cursor result height after ran
  obtain ⟨_, _, _, _, ranFirst, ranNext, _⟩ := bind_eq_done ran
  exact Nat.lt_of_le_of_lt (length_le ranNext) (advances _ _ _ _ _ ranFirst)

theorem bind_right {parser : Parser α} {next : α → Parser β}
    (advances : ∀ value, (next value).Advances) : (parser >>= next).Advances := by
  intro room cursor result height after ran
  obtain ⟨value, _, _, _, ranFirst, ranNext, _⟩ := bind_eq_done ran
  exact Nat.lt_of_lt_of_le (advances value _ _ _ _ _ ranNext) (length_le ranFirst)

theorem fail (cause : Cause) : (Parser.fail cause : Parser α).Advances := by
  intro room cursor value height after ran
  cases ran

theorem expect (token : Token) : (Parser.expect token).Advances := by
  intro room cursor value height after ran
  obtain ⟨found, _, _, _, looked, ranNext, _⟩ := bind_eq_done ran
  cases looked
  split at ranNext
  · next current =>
    cases ranNext
    exact Cursor.advance_lt current
  · cases ranNext

end Advances

end Parser

end ContractSyntax
