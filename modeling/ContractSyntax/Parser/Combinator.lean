/-
**Nesting, chains and lists.**

Three shapes of repetition make up the grammar. A *chain* starts with one operand and puts links on
top of all that was read before, so each link costs a level above the highest point so far. A
*sequence* is a row of entries between separators. An *opened* list is a row of parts that each
start with the same token.

* `Parser.nested`: one level deeper;
* `Parser.chain`, `Parser.sequence`, `Parser.opened`, `Parser.untilEnd`: the repetitions.
-/

import ContractSyntax.Parser.Basic

namespace ContractSyntax

namespace Parser

variable {α β : Type}

/-! ### Nesting -/

/-- Runs a parser one level deeper, if there is room. -/
def nested (parser : Parser α) : Parser α where
  count nesting cursor :=
    match nesting.descend? with
    | none => ⟨.error (cursor.error .tooDeep), nesting, cursor⟩
    | some below => (parser.count below.part cursor).behind nesting
  run
    | 0, cursor => .failed (cursor.error .tooDeep) cursor
    | room + 1, cursor =>
      match parser.run room cursor with
      | .done value height cursor => .done value (height + 1) cursor
      | .failed error cursor => .failed error cursor
  forward room cursor := by
    cases room with
    | zero => exact .refl cursor
    | succ room =>
      have inner := parser.forward room cursor
      dsimp only
      generalize parser.run room cursor = outcome at inner
      cases outcome <;> exact inner
  agrees nesting cursor := by
    cases descended : nesting.descend? with
    | none =>
      rw [Nat.sub_eq_zero_of_le (Nesting.descend?_eq_none_iff.mp descended)]
      exact .failed (.refl nesting)
    | some below =>
      obtain ⟨free, level, _, within⟩ := Nesting.descend?_isSome descended
      have inner := parser.agrees below.part cursor
      rw [show below.part.depth = nesting.depth + 1 from level] at inner
      rw [← Nat.succ_sub_succ, Nat.succ_sub (Nat.succ_le_of_lt free)]
      dsimp only
      generalize parser.run (nestingLimit - (nesting.depth + 1)) cursor = outcome,
        parser.count below.part cursor = counted at inner
      cases inner with
      | done climbs => exact .done (climbs.deeper descended)
      | failed settles =>
        exact .failed (Nesting.settles_behind fun valid => settles.within (within valid).part)

/-! ### Chains -/

/-- Goes on with a chain whose value so far has a given height. The next link is found by the token
at the cursor; it runs in the room above that height, and adds its own. -/
def chainFrom (link? : Token → Option (α → Parser α)) (room : Nat) (value : α) (height : Nat)
    (cursor : Cursor) : Outcome α :=
  match cursor.current?.bind link? with
  | none => .done value height cursor
  | some link =>
    if height < room then
      match (link value).run (room - (height + 1)) cursor with
      | .done value more cursor => chainFrom link? room value (height + 1 + more) cursor
      | .failed error cursor => .failed error cursor
    else .failed (cursor.error .tooDeep) cursor
termination_by room - height

theorem chainFrom_step (link? : Token → Option (α → Parser α)) (room : Nat) (value : α)
    (height : Nat) (cursor : Cursor) :
    chainFrom link? room value height cursor =
      match cursor.current?.bind link? with
      | none => .done value height cursor
      | some link =>
        if height < room then
          match (link value).run (room - (height + 1)) cursor with
          | .done value more cursor => chainFrom link? room value (height + 1 + more) cursor
          | .failed error cursor => .failed error cursor
        else .failed (cursor.error .tooDeep) cursor := by
  rw [chainFrom]

theorem reaches_chainFrom (link? : Token → Option (α → Parser α)) (room : Nat) (value : α)
    (height : Nat) (cursor : Cursor) :
    cursor.Reaches (chainFrom link? room value height cursor).cursor := by
  fun_induction chainFrom link? room value height cursor with
  | case1 => exact .refl _
  | case2 value height cursor link found fits next more after ran continued =>
    exact (reaches_of_done ran).trans continued
  | case3 value height cursor link found fits error after ran =>
    exact reaches_of_failed ran
  | case4 => exact .refl _

/-- Goes on with a chain, with counters. -/
def countChainFrom (link? : Token → Option (α → Parser α)) (value : α) (nesting : Nesting)
    (cursor : Cursor) : Counted α :=
  match cursor.current?.bind link? with
  | none => ⟨.ok value, nesting, cursor⟩
  | some link =>
    match _descended : nesting.atPeak.descend? with
    | none => ⟨.error (cursor.error .tooDeep), nesting.atPeak, cursor⟩
    | some below =>
      match _ran : (link value).count below cursor with
      | ⟨.ok value, nesting, cursor⟩ => countChainFrom link? value nesting cursor
      | ⟨.error error, nesting, cursor⟩ => ⟨.error error, nesting, cursor⟩
termination_by nestingLimit - nesting.peak
decreasing_by
  obtain ⟨_, _, climbs⟩ := run_of_count _ran
  exact Nesting.sub_peak_lt _descended climbs.toSettles

theorem agrees_chainFrom (link? : Token → Option (α → Parser α)) {before nesting : Nesting}
    {value : α} {height : Nat} {cursor : Cursor} (chain : before.Chains height nesting) :
    (chainFrom link? (nestingLimit - before.depth) value height cursor).Matches before
      ((countChainFrom link? value nesting cursor).behind before) := by
  fun_induction countChainFrom link? value nesting cursor generalizing height with
  | case1 value nesting cursor ended =>
    rw [chainFrom, ended]
    exact .done chain.behind
  | case2 value nesting cursor link found full =>
    rw [chainFrom, found]
    simp only [if_neg (chain.full full)]
    exact .failed (Nesting.settles_behind fun valid =>
      (chain.within valid).enter (chain.within valid).peak)
  | case3 value nesting cursor link found below descended next later after ran continued =>
    obtain ⟨fits, level, _⟩ := chain.at_link descended
    obtain ⟨more, same, climbs⟩ := run_of_count ran
    rw [level, Nat.sub_add_eq] at same
    rw [chainFrom, found]
    simp only [if_pos fits, same]
    exact continued (chain.link descended climbs)
  | case4 value nesting cursor link found below descended error later after ran =>
    obtain ⟨fits, level, _, within⟩ := chain.at_link descended
    obtain ⟨same, settles⟩ := run_of_count_error ran
    rw [level, Nat.sub_add_eq] at same
    rw [chainFrom, found]
    simp only [if_pos fits, same]
    exact .failed (Nesting.settles_behind fun valid => settles.within (within valid))

/-- An operand, and links as long as there are any. -/
def chain (first : Parser α) (link? : Token → Option (α → Parser α)) : Parser α where
  count nesting cursor :=
    (match first.count nesting.part cursor with
      | ⟨.ok value, nesting, cursor⟩ => countChainFrom link? value nesting cursor
      | ⟨.error error, nesting, cursor⟩ => ⟨.error error, nesting, cursor⟩).behind nesting
  run room cursor :=
    match first.run room cursor with
    | .done value height cursor => chainFrom link? room value height cursor
    | .failed error cursor => .failed error cursor
  forward room cursor := by
    have reached := first.forward room cursor
    generalize first.run room cursor = outcome at reached
    cases outcome with
    | done value height after =>
      exact reached.trans (reaches_chainFrom link? room value height after)
    | failed error after => exact reached
  agrees nesting cursor := by
    have operand := first.agrees nesting.part cursor
    rw [show nesting.part.depth = nesting.depth from rfl] at operand
    generalize first.run (nestingLimit - nesting.depth) cursor = outcome,
      first.count nesting.part cursor = counted at operand
    cases operand with
    | done climbs => exact agrees_chainFrom link? climbs.chains
    | failed settles =>
      exact .failed (Nesting.settles_behind fun valid => settles.within valid.part)

/-! ### Sequences -/

/-- An entry of a sequence: one that a separator follows, or the end of the sequence. -/
inductive Entry (α β : Type) where
  | item (value : α)
  | last (result : β)

/-- Goes on with a sequence after its first items, latest first. -/
def sequenceFrom (separator : Token) (entry : Parser (Entry α β)) (room : Nat) (items : List α)
    (height : Nat) (cursor : Cursor) : Outcome (List α × β) :=
  match _ran : entry.run room cursor with
  | .failed error cursor => .failed error cursor
  | .done (.last result) more cursor => .done (items.reverse, result) (max height more) cursor
  | .done (.item value) more after =>
    if _separated : after.current? = some separator then
      sequenceFrom separator entry room (value :: items) (max height more) after.advance
    else .failed (after.error (.unexpected [.token separator])) after
termination_by cursor.remaining.length
decreasing_by exact Nat.lt_of_lt_of_le (Cursor.advance_lt _separated) (length_le _ran)

theorem sequenceFrom_step (separator : Token) (entry : Parser (Entry α β)) (room : Nat)
    (items : List α) (height : Nat) (cursor : Cursor) :
    sequenceFrom separator entry room items height cursor =
      match entry.run room cursor with
      | .failed error after => .failed error after
      | .done (.last result) more after => .done (items.reverse, result) (max height more) after
      | .done (.item value) more after =>
        if after.current? = some separator then
          sequenceFrom separator entry room (value :: items) (max height more) after.advance
        else .failed (after.error (.unexpected [.token separator])) after := by
  rw [sequenceFrom]
  split
  · next ran => rw [ran]
  · next ran => rw [ran]
  · next ran =>
    rw [ran]
    simp only [dite_eq_ite]

theorem reaches_sequenceFrom (separator : Token) (entry : Parser (Entry α β)) (room : Nat)
    (items : List α) (height : Nat) (cursor : Cursor) :
    cursor.Reaches (sequenceFrom separator entry room items height cursor).cursor := by
  fun_induction sequenceFrom separator entry room items height cursor with
  | case1 items height cursor error after ran =>
    exact reaches_of_failed ran
  | case2 items height cursor result more after ran =>
    exact reaches_of_done ran
  | case3 items height cursor value more after ran separated continued =>
    exact (reaches_of_done ran).trans (after.reaches_advance.trans continued)
  | case4 items height cursor value more after ran separated =>
    exact reaches_of_done ran

/-- Goes on with a sequence, with counters. -/
def countSequenceFrom (separator : Token) (entry : Parser (Entry α β)) (items : List α)
    (nesting : Nesting) (cursor : Cursor) : Counted (List α × β) :=
  match _ran : entry.count nesting cursor with
  | ⟨.error error, nesting, cursor⟩ => ⟨.error error, nesting, cursor⟩
  | ⟨.ok (.last result), nesting, cursor⟩ => ⟨.ok (items.reverse, result), nesting, cursor⟩
  | ⟨.ok (.item value), nesting, after⟩ =>
    if _separated : after.current? = some separator then
      countSequenceFrom separator entry (value :: items) nesting after.advance
    else ⟨.error (after.error (.unexpected [.token separator])), nesting, after⟩
termination_by cursor.remaining.length
decreasing_by
  exact Nat.lt_of_lt_of_le (Cursor.advance_lt _separated) (length_le_of_count _ran)

theorem agrees_sequenceFrom (separator : Token) (entry : Parser (Entry α β)) {items : List α}
    {before nesting : Nesting} {height : Nat} {cursor : Cursor}
    (climbs : before.Climbs height nesting) :
    (sequenceFrom separator entry (nestingLimit - before.depth) items height cursor).Matches before
      (countSequenceFrom separator entry items nesting cursor) := by
  fun_induction countSequenceFrom separator entry items nesting cursor generalizing height with
  | case1 items nesting cursor error later after ran =>
    obtain ⟨same, settles⟩ := run_of_count_error ran
    rw [climbs.depth] at same
    rw [sequenceFrom_step, same]
    exact .failed (climbs.toSettles.trans settles)
  | case2 items nesting cursor result later after ran =>
    obtain ⟨more, same, higher⟩ := run_of_count ran
    rw [climbs.depth] at same
    rw [sequenceFrom_step, same]
    exact .done (climbs.trans higher)
  | case3 items nesting cursor value later after ran separated continued =>
    obtain ⟨more, same, higher⟩ := run_of_count ran
    rw [climbs.depth] at same
    rw [sequenceFrom_step, same]
    simp only [if_pos separated]
    exact continued (climbs.trans higher)
  | case4 items nesting cursor value later after ran other =>
    obtain ⟨more, same, higher⟩ := run_of_count ran
    rw [climbs.depth] at same
    rw [sequenceFrom_step, same]
    simp only [if_neg other]
    exact .failed (climbs.trans higher).toSettles

/-- Entries with a separator after each but the last. -/
def sequence (separator : Token) (entry : Parser (Entry α β)) : Parser (List α × β) where
  count := countSequenceFrom separator entry []
  run room cursor := sequenceFrom separator entry room [] 0 cursor
  forward room cursor := reaches_sequenceFrom separator entry room [] 0 cursor
  agrees nesting _ := agrees_sequenceFrom separator entry (.refl nesting)

/-- The entry of a comma list: its end, an item that a comma follows, or the last item. -/
def listEntry (close : Symbol) (item : Parser α) : Parser (Entry α (Option α × Span)) := do
  match ← accept (.symbol close) with
  | some stop => return .last (none, stop)
  | none =>
    let value ← item
    if (← current) = some (.symbol .comma) then return .item value
    match ← accept (.symbol close) with
    | some stop => return .last (some value, stop)
    | none => fail (.unexpected [.token (.symbol .comma), .token (.symbol close)])

/-- Items between commas up to a closing symbol, whose span is told too. The list may be empty, and
a comma may follow its last item. -/
def list (close : Symbol) (item : Parser α) : Parser (List α × Span) := do
  let (items, last, stop) ← sequence (.symbol .comma) (listEntry close item)
  return (items ++ last.toList, stop)

/-! ### Opened lists -/

/-- Goes on with an opened list after its first items, latest first. -/
def openedFrom (opener : Token) (item : Span → Parser α) (room : Nat) (items : List α)
    (height : Nat) (cursor : Cursor) : Outcome (List α) :=
  if _opened : cursor.current? = some opener then
    match _ran : (item cursor.span).run room cursor.advance with
    | .failed error cursor => .failed error cursor
    | .done value more after =>
      openedFrom opener item room (value :: items) (max height more) after
  else .done items.reverse height cursor
termination_by cursor.remaining.length
decreasing_by exact Nat.lt_of_le_of_lt (length_le _ran) (Cursor.advance_lt _opened)

theorem openedFrom_step (opener : Token) (item : Span → Parser α) (room : Nat) (items : List α)
    (height : Nat) (cursor : Cursor) :
    openedFrom opener item room items height cursor =
      if cursor.current? = some opener then
        match (item cursor.span).run room cursor.advance with
        | .failed error after => .failed error after
        | .done value more after => openedFrom opener item room (value :: items) (max height more) after
      else .done items.reverse height cursor := by
  rw [openedFrom]
  split
  · split
    · next ran => simp only [ran]
    · next ran => simp only [ran]
  · rfl

theorem reaches_openedFrom (opener : Token) (item : Span → Parser α) (room : Nat) (items : List α)
    (height : Nat) (cursor : Cursor) :
    cursor.Reaches (openedFrom opener item room items height cursor).cursor := by
  fun_induction openedFrom opener item room items height cursor with
  | case1 items height cursor opened error after ran =>
    exact cursor.reaches_advance.trans (reaches_of_failed ran)
  | case2 items height cursor opened value more after ran continued =>
    exact cursor.reaches_advance.trans ((reaches_of_done ran).trans continued)
  | case3 => exact .refl _

/-- Goes on with an opened list, with counters. -/
def countOpenedFrom (opener : Token) (item : Span → Parser α) (items : List α) (nesting : Nesting)
    (cursor : Cursor) : Counted (List α) :=
  if _opened : cursor.current? = some opener then
    match _ran : (item cursor.span).count nesting cursor.advance with
    | ⟨.error error, nesting, cursor⟩ => ⟨.error error, nesting, cursor⟩
    | ⟨.ok value, nesting, after⟩ => countOpenedFrom opener item (value :: items) nesting after
  else ⟨.ok items.reverse, nesting, cursor⟩
termination_by cursor.remaining.length
decreasing_by exact Nat.lt_of_le_of_lt (length_le_of_count _ran) (Cursor.advance_lt _opened)

theorem agrees_openedFrom (opener : Token) (item : Span → Parser α) {items : List α}
    {before nesting : Nesting} {height : Nat} {cursor : Cursor}
    (climbs : before.Climbs height nesting) :
    (openedFrom opener item (nestingLimit - before.depth) items height cursor).Matches before
      (countOpenedFrom opener item items nesting cursor) := by
  fun_induction countOpenedFrom opener item items nesting cursor generalizing height with
  | case1 items nesting cursor opened error later after ran =>
    obtain ⟨same, settles⟩ := run_of_count_error ran
    rw [climbs.depth] at same
    rw [openedFrom_step, if_pos opened, same]
    exact .failed (climbs.toSettles.trans settles)
  | case2 items nesting cursor opened value later after ran continued =>
    obtain ⟨more, same, higher⟩ := run_of_count ran
    rw [climbs.depth] at same
    rw [openedFrom_step, if_pos opened, same]
    exact continued (climbs.trans higher)
  | case3 items nesting cursor other =>
    rw [openedFrom_step, if_neg other]
    exact .done climbs

/-- Items as long as each starts with `opener`, whose span is handed to the item. -/
def opened (opener : Token) (item : Span → Parser α) : Parser (List α) where
  count := countOpenedFrom opener item []
  run room cursor := openedFrom opener item room [] 0 cursor
  forward room cursor := reaches_openedFrom opener item room [] 0 cursor
  agrees nesting _ := agrees_openedFrom opener item (.refl nesting)

/-! ### Items up to the end of the input -/

/-- Goes on to the end of the input after the first items, latest first. -/
def untilEndFrom (item : Parser α) (advances : item.Advances) (room : Nat) (items : List α)
    (height : Nat) (cursor : Cursor) : Outcome (List α) :=
  match cursor.remaining with
  | [] => .done items.reverse height cursor
  | _ :: _ =>
    match _ran : item.run room cursor with
    | .failed error cursor => .failed error cursor
    | .done value more after =>
      untilEndFrom item advances room (value :: items) (max height more) after
termination_by cursor.remaining.length
decreasing_by exact advances _ _ _ _ _ _ran

theorem untilEndFrom_step (item : Parser α) (advances : item.Advances) (room : Nat)
    (items : List α) (height : Nat) (cursor : Cursor) :
    untilEndFrom item advances room items height cursor =
      match cursor.remaining with
      | [] => .done items.reverse height cursor
      | _ :: _ =>
        match item.run room cursor with
        | .failed error after => .failed error after
        | .done value more after =>
          untilEndFrom item advances room (value :: items) (max height more) after := by
  rw [untilEndFrom]
  split
  · rfl
  · split
    · next ran => simp only [ran]
    · next ran => simp only [ran]

theorem reaches_untilEndFrom (item : Parser α) (advances : item.Advances) (room : Nat)
    (items : List α) (height : Nat) (cursor : Cursor) :
    cursor.Reaches (untilEndFrom item advances room items height cursor).cursor := by
  fun_induction untilEndFrom item advances room items height cursor with
  | case1 => exact .refl _
  | case2 items height cursor first rest remaining error after ran =>
    exact reaches_of_failed ran
  | case3 items height cursor first rest remaining value more after ran continued =>
    exact (reaches_of_done ran).trans continued

/-- Goes on to the end of the input, with counters. -/
def countUntilEndFrom (item : Parser α) (advances : item.Advances) (items : List α)
    (nesting : Nesting) (cursor : Cursor) : Counted (List α) :=
  match cursor.remaining with
  | [] => ⟨.ok items.reverse, nesting, cursor⟩
  | _ :: _ =>
    match _ran : item.count nesting cursor with
    | ⟨.error error, nesting, cursor⟩ => ⟨.error error, nesting, cursor⟩
    | ⟨.ok value, nesting, after⟩ => countUntilEndFrom item advances (value :: items) nesting after
termination_by cursor.remaining.length
decreasing_by exact advances.count _ran

theorem agrees_untilEndFrom (item : Parser α) (advances : item.Advances) {items : List α}
    {before nesting : Nesting} {height : Nat} {cursor : Cursor}
    (climbs : before.Climbs height nesting) :
    (untilEndFrom item advances (nestingLimit - before.depth) items height cursor).Matches before
      (countUntilEndFrom item advances items nesting cursor) := by
  fun_induction countUntilEndFrom item advances items nesting cursor generalizing height with
  | case1 items nesting cursor ended =>
    rw [untilEndFrom_step, ended]
    exact .done climbs
  | case2 items nesting cursor first rest more error later after ran =>
    obtain ⟨same, settles⟩ := run_of_count_error ran
    rw [climbs.depth] at same
    rw [untilEndFrom_step, more, same]
    exact .failed (climbs.toSettles.trans settles)
  | case3 items nesting cursor first rest more value later after ran continued =>
    obtain ⟨_, same, higher⟩ := run_of_count ran
    rw [climbs.depth] at same
    rw [untilEndFrom_step, more, same]
    exact continued (climbs.trans higher)

/-- Items up to the end of the input. -/
def untilEnd (item : Parser α) (advances : item.Advances) : Parser (List α) where
  count := countUntilEndFrom item advances []
  run room cursor := untilEndFrom item advances room [] 0 cursor
  forward room cursor := reaches_untilEndFrom item advances room [] 0 cursor
  agrees nesting _ := agrees_untilEndFrom item advances (.refl nesting)

end Parser

end ContractSyntax
