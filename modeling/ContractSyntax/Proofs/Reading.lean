/-
**Reading whole texts.**

A derivation over tokens at no place says all that matters about reading the same tokens wherever
they stand: the tree is the derived one but for its spans, or the nesting is too deep.

* `Parser.Takes.run_moved`, `Parser.Takes.moved`: from a derivation over moved tokens to a run over the
  tokens;
* `Program.Derives.of_read`: every program that is read has a derivation over the tokens of its text;
* `Program.Derives.read`: every derivation over the tokens of a text is read, if it is not too deep.
-/

import ContractSyntax.Proofs.Derivation.ItemComplete
import ContractSyntax.Proofs.Relocation.Program
import ContractSyntax.Source

namespace ContractSyntax

/-! ### Tokens at no place -/

/-- The place of tokens that have none. -/
abbrev nowhere : Span := ⟨0, 0⟩

/-- The tokens at no place in particular. -/
def bare (tokens : List Token) : Tokens := tokens.map fun token => ⟨token, nowhere⟩

@[simp] theorem bare_nil : bare [] = [] := rfl

@[simp] theorem bare_cons (token : Token) (tokens : List Token) :
    bare (token :: tokens) = ⟨token, nowhere⟩ :: bare tokens := rfl

@[simp] theorem bare_append (first second : List Token) :
    bare (first ++ second) = bare first ++ bare second :=
  List.map_append

@[simp] theorem map_node_bare (tokens : List Token) : (bare tokens).map Spanned.node = tokens := by
  simp [bare, Function.comp_def]

theorem relocate_erasure_tokens (tokens : Tokens) :
    relocate .erasure tokens = bare (tokens.map Spanned.node) := by
  simp only [bare, List.map_map]
  rfl

/-- Operators before an operand, spelled at no place. -/
theorem Derives.unary_bare (operator : UnaryOperator) {tokens : List Token} {operand : Spanned Expr}
    {height : Nat} (derived : Derives .signed (bare tokens) operand height) :
    Derives .signed (bare (operator.tokens ++ tokens))
      ⟨.unary operator operand, nowhere.merge operand.span⟩ (height + 1) := by
  obtain ⟨first, others, spelled⟩ : ∃ first others, operator.tokens = first :: others := by
    cases operator <;> exact ⟨_, _, rfl⟩
  have same : (⟨first, nowhere⟩ :: bare others).map Spanned.node = operator.tokens := by
    rw [spelled, List.map_cons, map_node_bare]
  rw [spelled, List.cons_append, bare_cons, bare_append]
  exact .unary operator ⟨first, nowhere⟩ (bare others) same derived

/-! ### Runs from the outermost level -/

namespace Parser

variable {α : Type} {parser : Parser α}

/-- The run from the cursor stops since a level more would exceed the limit. -/
def IsTooDeepAt (parser : Parser α) (cursor : Cursor) : Prop :=
  ∃ error, (parser.start cursor).1 = .error error ∧
    error.message = "nesting deeper than 256 levels"

theorem start_of_done {cursor after : Cursor} {value : α} {height : Nat}
    (ran : parser.run nestingLimit cursor = .done value height after) :
    parser.start cursor = (.ok value, after) := by
  rw [start_eq, ran]

theorem run_of_start {cursor : Cursor} {value : α} (started : (parser.start cursor).1 = .ok value) :
    ∃ height after, parser.run nestingLimit cursor = .done value height after := by
  rw [start_eq] at started
  split at started
  · next value height after ran =>
    cases started
    exact ⟨height, after, ran⟩
  · cases started

theorem run_of_start_error {cursor after : Cursor} {error : SyntaxError}
    (started : parser.start cursor = (.error error, after)) :
    parser.run nestingLimit cursor = .failed error after := by
  rw [start_eq] at started
  split at started
  · cases started
  · next ran =>
    cases started
    exact ran

theorem isTooDeepAt {cursor : Cursor} (deep : (parser.run nestingLimit cursor).IsTooDeep) :
    parser.IsTooDeepAt cursor := by
  obtain ⟨error, after, ran, cause⟩ := deep
  refine ⟨error, by rw [start_eq, ran], ?_⟩
  rw [SyntaxError.message, cause]
  rfl

/-- A run over moved tokens tells how the run over the tokens ends, up to the move. -/
theorem Takes.run_moved [Relocate α] {move : Relocation} {tokens rest : Tokens} {value : α}
    {height room : Nat} (takes : parser.Takes tokens rest value height room)
    (moves : Moves move parser parser) {cursor : Cursor}
    (same : relocate move cursor.remaining = tokens ++ rest) :
    (height ≤ room ∧ ∃ found after, parser.run room cursor = .done found height after ∧
      relocate move found = value ∧ relocate move after.remaining = rest) ∨
    (room < height ∧ (parser.run room cursor).IsTooDeep) := by
  have ran := moves room cursor
  have remaining : (cursor.relocate move).remaining = tokens ++ rest := same
  rcases takes _ remaining with ⟨fits, later, passes, done⟩ | ⟨large, error, later, failed, cause⟩
  · rw [done] at ran
    cases result : parser.run room cursor with
    | done found height after =>
      rw [result] at ran
      injection ran with value height moved
      subst value height moved
      exact .inl ⟨fits, found, after, rfl, rfl, passes.remaining_eq remaining⟩
    | failed error after =>
      rw [result] at ran
      cases ran
  · rw [failed] at ran
    cases result : parser.run room cursor with
    | done found height after =>
      rw [result] at ran
      cases ran
    | failed error' after =>
      rw [result] at ran
      injection ran with same
      subst same
      exact .inr ⟨large, error', after, rfl, cause⟩

/-- What a parser takes of moved tokens it takes of the tokens, up to the move. -/
theorem Takes.moved [Relocate α] {move : Relocation} {tokens : Tokens} {value : α} {height : Nat}
    (takes : parser.Takes tokens [] value height nestingLimit) (moves : Moves move parser parser)
    {cursor : Cursor} (same : relocate move cursor.remaining = tokens) :
    (height ≤ nestingLimit ∧
      ∃ found, (parser.start cursor).1 = .ok found ∧ relocate move found = value) ∨
    (nestingLimit < height ∧ parser.IsTooDeepAt cursor) := by
  rcases takes.run_moved moves (same.trans (List.append_nil _).symm) with
    ⟨fits, found, after, ran, moved, _⟩ | ⟨large, deep⟩
  · exact .inl ⟨fits, found, by rw [start_of_done ran], moved⟩
  · exact .inr ⟨large, isTooDeepAt deep⟩

/-- What a parser takes of tokens at no place it takes of the same tokens at any, up to spans. -/
theorem Takes.placed [Relocate α] {nodes : List Token} {value : α} {height : Nat}
    (takes : parser.Takes (bare nodes) [] value height nestingLimit)
    (moves : Moves .erasure parser parser) {cursor : Cursor}
    (same : cursor.remaining.map Spanned.node = nodes) :
    (height ≤ nestingLimit ∧
      ∃ found, (parser.start cursor).1 = .ok found ∧ relocate .erasure found = value) ∨
    (nestingLimit < height ∧ parser.IsTooDeepAt cursor) :=
  takes.moved moves ((relocate_erasure_tokens _).trans (congrArg bare same))

end Parser

/-! ### Readings in a session -/

section Session

variable {α : Type} {parser : Parser α} {session : Session} {after : Cursor}

/-- A run that succeeds in the room that is left is a reading, which raises the counters by its
height. -/
theorem Session.read_of_done {value : α} {height : Nat}
    (ran : parser.run (nestingLimit - session.nesting.depth) session.cursor =
      .done value height after) :
    (session.read parser).1 = .ok value ∧ (session.read parser).2.cursor = after ∧
      session.nesting.Climbs height (session.read parser).2.nesting := by
  rcases session.read_eq parser with ⟨_, _, _, same, result⟩ | ⟨_, _, same, _⟩
  · cases ran.symm.trans same
    exact result
  · cases ran.symm.trans same

theorem Session.read_of_failed {error : SyntaxError}
    (ran : parser.run (nestingLimit - session.nesting.depth) session.cursor = .failed error after) :
    (session.read parser).1 = .error error := by
  rcases session.read_eq parser with ⟨_, _, _, same, _⟩ | ⟨_, _, same, result, _⟩
  · cases ran.symm.trans same
  · cases ran.symm.trans same
    exact result

/-- What a parser takes in the room that is left is read, and no other error comes of it than that
there is no room. -/
theorem Parser.TakesAt.read {tokens : Tokens} {value : α} {height : Nat}
    (taken : parser.TakesAt session.cursor tokens value height
      (nestingLimit - session.nesting.depth)) :
    (height ≤ nestingLimit - session.nesting.depth ∧ (session.read parser).1 = .ok value ∧
      Cursor.Passes tokens session.cursor (session.read parser).2.cursor) ∨
    (nestingLimit - session.nesting.depth < height ∧
      ∃ error, (session.read parser).1 = .error error ∧ error.cause = .tooDeep) := by
  rcases taken with ⟨fits, after, passes, ran⟩ | ⟨large, error, after, ran, cause⟩
  · obtain ⟨result, stopped, _⟩ := Session.read_of_done ran
    exact .inl ⟨fits, result, stopped ▸ passes⟩
  · exact .inr ⟨large, error, Session.read_of_failed ran, cause⟩

/-- What comes of reading tokens of a text that ends at `stop`, with a parser for these tokens alone. -/
def Parser.alone (parser : Parser α) (stop : Nat) (tokens : Tokens) :
    Except SyntaxError α × Session :=
  (Session.fresh (.start stop tokens)).read parser

variable {stop : Nat} {tokens : Tokens} {value : α}

theorem Parser.peak_alone_le : (parser.alone stop tokens).2.nesting.peak ≤ nestingLimit :=
  (((Session.fresh (.start stop tokens)).settles_read parser).within Nesting.within_outermost).peak

/-- A parser alone starts at the outermost level, so it has opened as many levels as it has reached. -/
theorem Parser.Yields.alone {meaning : Tokens → α → Nat → Cursor → Prop}
    (yields : parser.Yields (.start stop tokens) meaning)
    (gave : (parser.alone stop tokens).1 = .ok value) :
    ∃ passed, Cursor.Passes passed (.start stop tokens) (parser.alone stop tokens).2.cursor ∧
      meaning passed value (parser.alone stop tokens).2.nesting.peak
        (parser.alone stop tokens).2.cursor := by
  rcases (Session.fresh (.start stop tokens)).read_eq parser with
    ⟨_, height, after, ran, result, stopped, climbs⟩ | ⟨_, _, _, result, _⟩
  · cases result.symm.trans gave
    have level : (parser.alone stop tokens).2.nesting.depth = 0 := climbs.depth
    have reached : max (parser.alone stop tokens).2.nesting.peak
        (parser.alone stop tokens).2.nesting.depth = max 0 (0 + height) := climbs.reached
    have levels : (parser.alone stop tokens).2.nesting.peak = height := by omega
    rw [show (parser.alone stop tokens).2.cursor = after from stopped, levels]
    exact yields _ _ _ _ ran
  · cases result.symm.trans gave

/-- A parser alone takes all tokens that it takes with nothing behind them. -/
theorem Parser.Takes.alone {height : Nat} (takes : parser.Takes tokens [] value height nestingLimit)
    (fits : height ≤ nestingLimit) (stop : Nat) :
    (parser.alone stop tokens).1 = .ok value ∧
      (parser.alone stop tokens).2.cursor.remaining = [] := by
  have remaining : (Cursor.start stop tokens).remaining = tokens ++ [] := (List.append_nil _).symm
  rcases @TakesAt.read _ _ (.fresh (.start stop tokens)) _ _ _ (takes _ remaining) with
    ⟨_, result, passes⟩ | ⟨large, _⟩
  · exact ⟨result, passes.remaining_eq remaining⟩
  · exact absurd fits (Nat.not_le.mpr large)

end Session

/-! ### To the end of the input -/

namespace Parser

variable {α : Type} {parser : Parser α}

/-- The parser, with nothing after what it reads. -/
def whole (parser : Parser α) : Parser α := do
  let value ← parser
  endOfInput
  return value

theorem Yields.endOfInput {cursor : Cursor} :
    Parser.endOfInput.Yields cursor fun tokens _ height after =>
      tokens = [] ∧ height = 0 ∧ after.remaining = [] := by
  refine .current ?_
  split
  · next ended =>
    refine .pure ⟨rfl, rfl, ?_⟩
    simpa [Cursor.current?] using ended
  · exact .fail

theorem Yields.whole {cursor : Cursor} {meaning : Tokens → α → Nat → Prop}
    (yields : parser.Yields cursor fun tokens value height _ => meaning tokens value height) :
    parser.whole.Yields cursor fun tokens value height after =>
      meaning tokens value height ∧ after.remaining = [] := by
  refine .bind yields fun passed value height middle _ holds => ?_
  refine .bind .endOfInput fun _ _ _ after _ holds' => .pure ?_
  obtain ⟨rfl, rfl, ended⟩ := holds'
  exact ⟨by simpa using holds, ended⟩

theorem Takes.whole {tokens : Tokens} {value : α} {height room : Nat}
    (takes : parser.Takes tokens [] value height room) :
    parser.whole.Takes tokens [] value height room := by
  have ended {rest : Tokens} (none : rest = []) :
      Parser.endOfInput.Takes [] rest () 0 room := by
    subst none
    exact .current .pure
  exact .last takes (.flat (ended rfl) .pure)

theorem Moves.whole [Relocate α] {move : Relocation} (moves : Moves move parser parser) :
    Moves move parser.whole parser.whole :=
  .bind moves fun _ => .bind .endOfInput fun _ => .pure rfl

end Parser

/-! ### Source texts -/

section Source

variable {α : Type} {parser : Parser α} {source : String} {tokens : Tokens}

theorem readTokens_of_ok (lexed : tokenize source = .ok tokens) :
    readTokens source = ⟨.ok tokens, [.tokenized source.utf8ByteSize tokens.length]⟩ := by
  simp only [readTokens, lexed]

theorem readTokens_eq_ok {events : List Event} (read : readTokens source = ⟨.ok tokens, events⟩) :
    tokenize source = .ok tokens := by
  unfold readTokens at read
  split at read
  · next lexed =>
    injection read with same
    rw [lexed, same]
  · injection read with same
    cases same

/-- A text is read by running over its tokens. -/
theorem readAll_value (lexed : tokenize source = .ok tokens) :
    ∃ cursor : Cursor, cursor.remaining = tokens ∧
      (readAll parser source).value = (parser.whole.start cursor).1.mapError .syntactic := by
  refine ⟨.ofSource source.utf8ByteSize tokens [.tokenized source.utf8ByteSize tokens.length], rfl, ?_⟩
  simp only [readAll, readTokens_of_ok lexed]
  rfl

/-- A program is read by running over the tokens of its text. -/
theorem readProgram_value (file : String) (lexed : tokenize source = .ok tokens) :
    ∃ cursor : Cursor, cursor.remaining = tokens ∧
      (readProgram file source).value = (Parser.program.start cursor).1.mapError .syntactic := by
  refine ⟨.ofSource source.utf8ByteSize tokens
    ([.tokenized source.utf8ByteSize tokens.length] ++ [.started file tokens.length none]), rfl, ?_⟩
  simp only [readProgram, readTokens_of_ok lexed, readProgramTokens]
  split <;> next started => simp only [started]

theorem tokenize_of_readProgram {file : String} {program : Program}
    (read : (readProgram file source).value = .ok program) :
    ∃ tokens, tokenize source = .ok tokens := by
  unfold readProgram at read
  split at read
  · cases read
  · next tokens events lexed => exact ⟨tokens, readTokens_eq_ok lexed⟩

theorem ok_of_isOk {ε : Type} {result : Except ε α} (isOk : result.isOk = true) :
    ∃ value, result = .ok value := by
  cases result with
  | error error => cases isOk
  | ok value => exact ⟨value, rfl⟩

theorem ok_of_toOption {ε : Type} {result : Except ε α} {value : α}
    (same : result.toOption = some value) : result = .ok value := by
  cases result with
  | error error => cases same
  | ok found => exact congrArg Except.ok (Option.some.inj same)

theorem ok_of_mapError {ε ε' : Type} {result : Except ε α} {wrap : ε → ε'} {value : α}
    (read : result.mapError wrap = .ok value) : result = .ok value := by
  cases result with
  | error error => cases read
  | ok other =>
    injection read with same
    rw [same]

/-- Every program that is read has a derivation over the tokens of its text. -/
theorem Program.Derives.of_read {file : String} {program : Program}
    (read : (readProgram file source).value = .ok program) :
    ∃ tokens height, tokenize source = .ok tokens ∧ program.Derives tokens height := by
  obtain ⟨tokens, lexed⟩ := tokenize_of_readProgram read
  obtain ⟨cursor, rfl, value⟩ := readProgram_value file lexed
  obtain ⟨height, after, ran⟩ := Parser.run_of_start (ok_of_mapError (value.symm.trans read))
  obtain ⟨passed, passes, derived, none⟩ := Parser.Yields.program _ _ _ _ ran
  refine ⟨cursor.remaining, height, lexed, ?_⟩
  rwa [passes.remaining, none, List.append_nil]

/-- What is read of a whole text means what the parser yields from the tokens of the text. -/
theorem meaning_of_readAll {meaning : Tokens → α → Nat → Prop} {value : α}
    (yields : ∀ cursor, parser.Yields cursor fun tokens value height _ => meaning tokens value height)
    (read : (readAll parser source).value = .ok value) :
    ∃ tokens height, tokenize source = .ok tokens ∧ meaning tokens value height := by
  obtain ⟨tokens, lexed⟩ : ∃ tokens, tokenize source = .ok tokens := by
    unfold readAll at read
    split at read
    · cases read
    · next tokens events lexed => exact ⟨tokens, readTokens_eq_ok lexed⟩
  obtain ⟨cursor, rfl, same⟩ := @readAll_value _ parser _ _ lexed
  obtain ⟨height, after, ran⟩ := Parser.run_of_start (ok_of_mapError (same.symm.trans read))
  obtain ⟨passed, passes, means, none⟩ := (yields cursor).whole _ _ _ _ ran
  refine ⟨cursor.remaining, height, lexed, ?_⟩
  rwa [passes.remaining, none, List.append_nil]

/-- Every expression that is read has a derivation over the tokens of its text. -/
theorem Derives.of_readExpr {found : Spanned Expr} (read : (readExpr source).value = .ok found) :
    ∃ tokens height, tokenize source = .ok tokens ∧ Derives .subexpr tokens found height :=
  meaning_of_readAll (fun _ => .expression) read

/-- The levels that a program opens are within the limit if it is read. -/
theorem Program.Derives.height_le {file : String} {program found : Program} {height : Nat}
    (derived : program.Derives tokens height) (lexed : tokenize source = .ok tokens)
    (read : (readProgram file source).value = .ok found) : height ≤ nestingLimit := by
  obtain ⟨cursor, rfl, value⟩ := readProgram_value file lexed
  rcases derived.takes (Nat.le_refl _) cursor (List.append_nil _).symm with ⟨fits, _⟩ | ⟨_, deep⟩
  · exact fits
  · obtain ⟨error, started, _⟩ := Parser.isTooDeepAt deep
    rw [value, started] at read
    cases read

/-- What a parser takes of the tokens of a text is read in it. -/
theorem readAll_taken {value : α} {height : Nat} (lexed : tokenize source = .ok tokens)
    (takes : parser.Takes tokens [] value height nestingLimit) :
    (height ≤ nestingLimit ∧ (readAll parser source).value = .ok value) ∨
    (nestingLimit < height ∧ ∃ error, (readAll parser source).value = .error (.syntactic error) ∧
      error.message = "nesting deeper than 256 levels") := by
  obtain ⟨cursor, rfl, read⟩ := @readAll_value _ parser _ _ lexed
  rw [read]
  rcases takes.whole cursor (List.append_nil _).symm with ⟨fits, after, _, ran⟩ | ⟨large, deep⟩
  · exact .inl ⟨fits, by rw [Parser.start_of_done ran]; rfl⟩
  · obtain ⟨error, started, message⟩ := Parser.isTooDeepAt deep
    exact .inr ⟨large, error, by rw [started]; rfl, message⟩

/-- What a parser takes of moved tokens is read in their text, up to the move. -/
theorem readAll_moved [Relocate α] {move : Relocation} {value : α} {height : Nat}
    (lexed : tokenize source = .ok tokens) (moves : Parser.Moves move parser parser)
    (takes : parser.Takes (relocate move tokens) [] value height nestingLimit)
    (fits : height ≤ nestingLimit) :
    ∃ found, (readAll parser source).value = .ok found ∧ relocate move found = value := by
  obtain ⟨cursor, rfl, read⟩ := @readAll_value _ parser _ _ lexed
  rcases takes.whole.moved moves.whole rfl with ⟨_, found, started, same⟩ | ⟨large, _⟩
  · exact ⟨found, by rw [read, started]; rfl, same⟩
  · exact absurd fits (Nat.not_le.mpr large)

/-- A derivation over moved tokens is read in their text, up to the move. -/
theorem readProgram_moved {move : Relocation} (file : String) {program : Program} {height : Nat}
    (lexed : tokenize source = .ok tokens) (derived : program.Derives (relocate move tokens) height)
    (fits : height ≤ nestingLimit) :
    ∃ found, (readProgram file source).value = .ok found ∧ relocate move found = program := by
  obtain ⟨cursor, rfl, read⟩ := readProgram_value file lexed
  rcases (derived.takes (Nat.le_refl _)).moved .program rfl with ⟨_, found, started, same⟩ | ⟨large, _⟩
  · exact ⟨found, by rw [read, started]; rfl, same⟩
  · exact absurd fits (Nat.not_le.mpr large)

/-- Every derivation over the tokens of a text is read, if the nesting is not too deep. -/
theorem Program.Derives.read (file : String) {program : Program} {height : Nat}
    (lexed : tokenize source = .ok tokens)
    (derived : program.Derives (bare (tokens.map Spanned.node)) height) :
    (height ≤ nestingLimit ∧
      ∃ found, (readProgram file source).value = .ok found ∧ found.erased = program) ∨
    (nestingLimit < height ∧
      ∃ error, (readProgram file source).value = .error (.syntactic error) ∧
        error.message = "nesting deeper than 256 levels") := by
  obtain ⟨cursor, rfl, value⟩ := readProgram_value file lexed
  rw [value]
  rcases (derived.takes (Nat.le_refl _)).placed .program rfl with
    ⟨fits, found, started, same⟩ | ⟨large, error, started, message⟩
  · exact .inl ⟨fits, found, by rw [started]; rfl, same⟩
  · exact .inr ⟨large, error, by rw [started]; rfl, message⟩

end Source

end ContractSyntax
