/-
**What successful chains and lists pass.**

Each repetition passes its parts one after the other. The lemmas here are about any parts; what
the parts mean is put in later.

* `Yields.chain`: what holds of the operand and is kept by each link holds at the end of the chain;
* `Yields.list`: a list passes a row of phrases and the closing symbol;
* `Yields.opened`, `Yields.untilEnd`: these pass one phrase after the other.
-/

import ContractSyntax.Proofs.Derivation.Success

namespace ContractSyntax

/-- Phrases one after the other. -/
inductive Several {α : Type} (meaning : Tokens → α → Nat → Prop) : Tokens → List α → Nat → Prop
  | none : Several meaning [] [] 0
  | more {tokens others : Tokens} {value : α} {values : List α} {height depth : Nat}
      (first : meaning tokens value height) (continued : Several meaning others values depth) :
      Several meaning (tokens ++ others) (value :: values) (max height depth)

/-- Items with a separator after each, and what ends them. -/
inductive Sequenced {α β : Type} (separator : Token) (item : Tokens → α → Nat → Cursor → Prop)
    (last : Tokens → β → Nat → Cursor → Prop) :
    Tokens → List α → β → Nat → Cursor → Prop
  | last {tokens : Tokens} {result : β} {height : Nat} {after : Cursor}
      (holds : last tokens result height after) :
      Sequenced separator item last tokens [] result height after
  | more {tokens others : Tokens} {value : α} {values : List α} {result : β} {height depth : Nat}
      (span : Span) {middle after : Cursor} (current : middle.current? = some separator)
      (holds : item tokens value height middle)
      (continued : Sequenced separator item last others values result depth after) :
      Sequenced separator item last (tokens ++ ⟨separator, span⟩ :: others) (value :: values)
        result (max height depth) after

namespace Row

variable {α : Type} {meaning : Tokens → α → Nat → Prop}

/-- The last phrase of a row, if there is one. -/
theorem ofLast {close : Symbol} {stop : Span} {tokens : Tokens} {found : Option α}
    {height : Nat}
    (holds : (found = none ∧ tokens = [⟨.symbol close, stop⟩] ∧ height = 0) ∨
      ∃ value passed, found = some value ∧ tokens = passed ++ [⟨.symbol close, stop⟩] ∧
        meaning passed value height) :
    ∃ passed, tokens = passed ++ [⟨.symbol close, stop⟩] ∧
      Row meaning passed found.toList height := by
  rcases holds with ⟨rfl, rfl, rfl⟩ | ⟨value, passed, rfl, rfl, holds⟩
  · exact ⟨[], rfl, [], .none, rfl, rfl, by simp⟩
  · exact ⟨passed, rfl, [⟨passed, value, height⟩], .last passed, by simp, by simp, by simpa⟩

theorem cons {tokens others : Tokens} {value : α} {values : List α} {height depth : Nat}
    (comma : Span) (holds : meaning tokens value height) (row : Row meaning others values depth) :
    Row meaning (tokens ++ ⟨.symbol .comma, comma⟩ :: others) (value :: values)
      (max height depth) := by
  obtain ⟨parts, commas, rfl, rfl, each⟩ := row
  refine ⟨⟨tokens, value, height⟩ :: parts, .more tokens comma commas, by simp, by simp, ?_⟩
  intro part member
  rcases List.mem_cons.mp member with rfl | member
  · exact holds
  · exact each part member

/-- A row of names. -/
theorem names {tokens : Tokens} {names : List Name} {height : Nat}
    (row : Row (fun passed (name : Name) depth => passed = [name.ident] ∧ depth = 0) tokens names
      height) : Commas (names.map fun name => [name.ident]) tokens ∧ height = 0 := by
  obtain ⟨parts, commas, rfl, rfl, each⟩ := row
  have spelled : parts.map Part.tokens = (parts.map Part.value).map fun name => [name.ident] := by
    rw [List.map_map]
    exact List.map_congr_left fun part member => (each part member).1
  refine ⟨spelled ▸ commas, highest_eq_zero fun height member => ?_⟩
  obtain ⟨part, inside, rfl⟩ := List.mem_map.mp member
  exact (each part inside).2

end Row

namespace Parser

variable {α β : Type}

/-- The meaning of an entry by those of items and of the end of a sequence. -/
def Entry.Meaning (item : Tokens → α → Nat → Cursor → Prop)
    (last : Tokens → β → Nat → Cursor → Prop) (tokens : Tokens) :
    Entry α β → Nat → Cursor → Prop
  | .item value => item tokens value
  | .last result => last tokens result

namespace Yields

variable {cursor : Cursor}

/-! ### Chains -/

theorem chainFrom {link? : Token → Option (α → Parser α)}
    {meaning : Tokens → α → Nat → Cursor → Prop}
    (linked : ∀ passed value height middle link, meaning passed value height middle →
      middle.current?.bind link? = some link →
      (link value).Yields middle fun tokens result more after =>
        meaning (passed ++ tokens) result (height + 1 + more) after)
    {room : Nat} {value result : α} {height final : Nat} {middle after : Cursor} {passed : Tokens}
    (holds : meaning passed value height middle)
    (ran : Parser.chainFrom link? room value height middle = .done result final after) :
    ∃ tokens, Cursor.Passes tokens middle after ∧ meaning (passed ++ tokens) result final after ∧
      after.current?.bind link? = none := by
  fun_induction Parser.chainFrom link? room value height middle generalizing passed with
  | case1 value height middle ended =>
    cases ran
    exact ⟨[], Cursor.passes_nil _, by simpa using holds, ended⟩
  | case2 value height middle link found fits next more stop ranLink continued =>
    obtain ⟨tokens, passes, holds⟩ := linked _ _ _ _ _ holds found _ _ _ _ ranLink
    obtain ⟨others, later, holds, ended⟩ := continued holds ran
    exact ⟨tokens ++ others, passes.trans later, by simpa using holds, ended⟩
  | case3 => cases ran
  | case4 => cases ran

/-- What holds of the operand and is kept by each link holds of the chain, which no link follows. -/
theorem chain {first : Parser α} {link? : Token → Option (α → Parser α)}
    {meaning : Tokens → α → Nat → Cursor → Prop} (yields : first.Yields cursor meaning)
    (linked : ∀ passed value height middle link, meaning passed value height middle →
      middle.current?.bind link? = some link →
      (link value).Yields middle fun tokens result more after =>
        meaning (passed ++ tokens) result (height + 1 + more) after) :
    (Parser.chain first link?).Yields cursor fun tokens result height after =>
      meaning tokens result height after ∧ after.current?.bind link? = none := by
  intro room result final after ran
  simp only [Parser.chain] at ran
  cases ranFirst : first.run room cursor with
  | failed error stop => simp [ranFirst] at ran
  | done value height middle =>
    rw [ranFirst] at ran
    obtain ⟨passed, passes, holds⟩ := yields _ _ _ _ ranFirst
    obtain ⟨tokens, later, holds, ended⟩ := chainFrom linked holds ran
    exact ⟨passed ++ tokens, passes.trans later, holds, ended⟩

/-! ### Sequences -/

theorem sequenceFrom {separator : Token} {entry : Parser (Entry α β)}
    {item : Tokens → α → Nat → Cursor → Prop} {last : Tokens → β → Nat → Cursor → Prop}
    (yields : ∀ cursor, entry.Yields cursor (Entry.Meaning item last))
    {room : Nat} {items values : List α} {result : β} {height final : Nat} {middle after : Cursor}
    (ran : Parser.sequenceFrom separator entry room items height middle =
      .done (values, result) final after) :
    ∃ tokens others more, Cursor.Passes tokens middle after ∧
      Sequenced separator item last tokens others result more after ∧
      values = items.reverse ++ others ∧ final = max height more := by
  fun_induction Parser.sequenceFrom separator entry room items height middle with
  | case1 => cases ran
  | case2 items height middle found more stop ranEntry =>
    cases ran
    obtain ⟨tokens, passes, holds⟩ := yields _ _ _ _ _ ranEntry
    exact ⟨tokens, [], more, passes, .last holds, by simp, rfl⟩
  | case3 items height middle value more stop ranEntry separated continued =>
    obtain ⟨tokens, passes, holds⟩ := yields _ _ _ _ _ ranEntry
    obtain ⟨others, rest, depth, later, sequenced, rfl, rfl⟩ := continued ran
    refine ⟨_, value :: rest, max more depth, passes.trans
      ((Cursor.passes_advance separated).trans later), .more _ separated holds sequenced, ?_, ?_⟩
    · simp
    · exact Nat.max_assoc _ _ _
  | case4 => cases ran

theorem sequence {separator : Token} {entry : Parser (Entry α β)}
    {item : Tokens → α → Nat → Cursor → Prop} {last : Tokens → β → Nat → Cursor → Prop}
    (yields : ∀ cursor, entry.Yields cursor (Entry.Meaning item last)) :
    (Parser.sequence separator entry).Yields cursor fun tokens found height after =>
      Sequenced separator item last tokens found.1 found.2 height after := by
  rintro room ⟨values, result⟩ height after ran
  obtain ⟨tokens, others, more, passes, sequenced, rfl, rfl⟩ := sequenceFrom yields ran
  exact ⟨tokens, passes, by simpa using sequenced⟩

/-! ### Comma lists -/

variable {meaning : Tokens → α → Nat → Prop}

/-- What ends a comma list: the last phrase, if no comma follows it, and the closing symbol. -/
def ClosedBy (meaning : Tokens → α → Nat → Prop) (close : Symbol) (tokens : Tokens)
    (found : Option α × Span) (height : Nat) (_ : Cursor) : Prop :=
  ∃ passed, tokens = passed ++ [⟨.symbol close, found.2⟩] ∧
    Row meaning passed found.1.toList height

theorem listEntry {close : Symbol} {parser : Parser α}
    (yields : ∀ cursor, parser.Yields cursor fun tokens value height _ =>
      meaning tokens value height) :
    (Parser.listEntry close parser).Yields cursor
      (Entry.Meaning (fun tokens value height _ => meaning tokens value height)
        (ClosedBy meaning close)) := by
  refine accept (fun stop middle _ => .pure ?_) fun _ => ?_
  · exact Row.ofLast (.inl ⟨rfl, rfl, rfl⟩)
  refine bind (yields cursor) fun passed value height middle _ holds => ?_
  refine current ?_
  split
  · exact .pure (by simpa [Entry.Meaning] using holds)
  refine accept (fun stop after _ => .pure ?_) fun _ => .fail
  exact Row.ofLast (.inr ⟨value, passed, rfl, rfl, by simpa using holds⟩)

/-- Items with a comma after each are a row together with what the last of them may be. -/
theorem row_of_sequenced {close : Symbol} {tokens : Tokens} {values : List α}
    {found : Option α × Span} {height : Nat} {after : Cursor}
    (sequenced : Sequenced (.symbol .comma)
      (fun tokens value height _ => meaning tokens value height) (ClosedBy meaning close)
      tokens values found height after) :
    ∃ passed, tokens = passed ++ [⟨.symbol close, found.2⟩] ∧
      Row meaning passed (values ++ found.1.toList) height := by
  induction sequenced with
  | last holds => simpa [ClosedBy] using holds
  | more comma current holds _ continued =>
    obtain ⟨passed, rfl, row⟩ := continued
    exact ⟨_, by simp, Row.cons comma holds row⟩

/-- A list passes a row of phrases and the closing symbol. -/
theorem list {close : Symbol} {parser : Parser α}
    (yields : ∀ cursor, parser.Yields cursor fun tokens value height _ =>
      meaning tokens value height) :
    (Parser.list close parser).Yields cursor fun tokens found height _ =>
      ∃ passed, tokens = passed ++ [⟨.symbol close, found.2⟩] ∧
        Row meaning passed found.1 height := by
  refine bind (sequence fun _ => listEntry yields) fun passed found height middle _ sequenced => .pure ?_
  obtain ⟨tokens, rfl, row⟩ := row_of_sequenced sequenced
  exact ⟨tokens, by simp, by simpa using row⟩

/-! ### Phrases one after the other -/

/-- The phrases that were found before the rest. -/
theorem openedFrom {opener : Token} {parser : Span → Parser α}
    (yields : ∀ span cursor, (parser span).Yields cursor fun tokens value height _ =>
      meaning (⟨opener, span⟩ :: tokens) value height)
    {room : Nat} {items values : List α} {height final : Nat} {middle after : Cursor}
    (ran : Parser.openedFrom opener parser room items height middle = .done values final after) :
    ∃ tokens others more, Cursor.Passes tokens middle after ∧
      Several meaning tokens others more ∧ values = items.reverse ++ others ∧
      final = max height more ∧ after.current? ≠ some opener := by
  fun_induction Parser.openedFrom opener parser room items height middle with
  | case1 => cases ran
  | case2 items height middle opened value more stop ranItem continued =>
    obtain ⟨tokens, passes, holds⟩ := yields _ _ _ _ _ _ ranItem
    obtain ⟨others, rest, depth, later, several, rfl, rfl, ended⟩ := continued ran
    refine ⟨_, value :: rest, max more depth, ?_, .more holds several, by simp, ?_, ended⟩
    · exact (Cursor.passes_advance opened).trans (passes.trans later)
    · exact Nat.max_assoc _ _ _
  | case3 items height middle ended =>
    cases ran
    exact ⟨[], [], 0, Cursor.passes_nil _, .none, by simp, by simp, ended⟩

theorem opened {opener : Token} {parser : Span → Parser α}
    (yields : ∀ span cursor, (parser span).Yields cursor fun tokens value height _ =>
      meaning (⟨opener, span⟩ :: tokens) value height) :
    (Parser.opened opener parser).Yields cursor fun tokens values height after =>
      Several meaning tokens values height ∧ after.current? ≠ some opener := by
  intro room values height after ran
  obtain ⟨tokens, others, more, passes, several, rfl, rfl, ended⟩ := openedFrom yields ran
  exact ⟨tokens, passes, by simpa using several, ended⟩

theorem untilEndFrom {parser : Parser α} {advances : parser.Advances}
    (yields : ∀ cursor, parser.Yields cursor fun tokens value height _ =>
      meaning tokens value height)
    {room : Nat} {items values : List α} {height final : Nat} {middle after : Cursor}
    (ran : Parser.untilEndFrom parser advances room items height middle =
      .done values final after) :
    ∃ tokens others more, Cursor.Passes tokens middle after ∧
      Several meaning tokens others more ∧ values = items.reverse ++ others ∧
      final = max height more ∧ after.remaining = [] := by
  fun_induction Parser.untilEndFrom parser advances room items height middle with
  | case1 items height middle ended =>
    cases ran
    exact ⟨[], [], 0, Cursor.passes_nil _, .none, by simp, by simp, ended⟩
  | case2 => cases ran
  | case3 items height middle first rest remaining value more stop ranItem continued =>
    obtain ⟨tokens, passes, holds⟩ := yields _ _ _ _ _ ranItem
    obtain ⟨others, rest, depth, later, several, rfl, rfl, ended⟩ := continued ran
    exact ⟨_, value :: rest, max more depth, passes.trans later, .more holds several, by simp,
      Nat.max_assoc _ _ _, ended⟩

theorem untilEnd {parser : Parser α} {advances : parser.Advances}
    (yields : ∀ cursor, parser.Yields cursor fun tokens value height _ =>
      meaning tokens value height) :
    (Parser.untilEnd parser advances).Yields cursor fun tokens values height after =>
      Several meaning tokens values height ∧ after.remaining = [] := by
  intro room values height after ran
  obtain ⟨tokens, others, more, passes, several, rfl, rfl, ended⟩ := untilEndFrom yields ran
  exact ⟨tokens, passes, by simpa using several, ended⟩

end Yields

end Parser

end ContractSyntax
