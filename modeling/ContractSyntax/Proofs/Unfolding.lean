/-
**Repetitions unfold into their first part and the rest.**

The loops behind sequences and lists gather what was found so far. Started without anything found,
each of them runs like parsers in a row, so that what holds of those carries over to it.

* `Parser.run_sequence`, `Parser.run_opened`, `Parser.run_untilEnd`: the equations.
-/

import ContractSyntax.Parser.Combinator

namespace ContractSyntax

/-- The outcome with another value. -/
def Outcome.map {α β : Type} (change : α → β) : Outcome α → Outcome β
  | done value height cursor => done (change value) height cursor
  | failed error cursor => failed error cursor

namespace Parser

variable {α β : Type}

/-! ### Runs -/

theorem run_expect (token : Token) (room : Nat) (cursor : Cursor) :
    (expect token).run room cursor =
      if cursor.current? = some token then .done cursor.span 0 cursor.advance
      else .failed (cursor.error (.unexpected [.token token])) cursor := by
  show Outcome.above 0 ((if cursor.current? = some token then pass
    else fail (.unexpected [.token token]) : Parser Span).run room cursor) = _
  split <;> rfl

theorem run_accept (token : Token) (room : Nat) (cursor : Cursor) :
    (accept token).run room cursor =
      if cursor.current? = some token then .done (some cursor.span) 0 cursor.advance
      else .done none 0 cursor := by
  show Outcome.above 0 ((if cursor.current? = some token then (do return some (← pass))
    else return none : Parser (Option Span)).run room cursor) = _
  split <;> rfl

theorem run_last (parser : Parser α) (make : α → β) (room : Nat) (cursor : Cursor) :
    (parser >>= fun value => pure (make value)).run room cursor =
      (parser.run room cursor).map make := by
  rw [run_bind]
  cases parser.run room cursor with
  | failed error after => rfl
  | done value height after => simp [run_pure, Outcome.above, Outcome.map]

/-! ### Sequences -/

/-- The items found before the rest of a sequence are put before those of the rest. -/
theorem sequenceFrom_eq (separator : Token) (entry : Parser (Entry α β)) (room : Nat)
    (items : List α) (height : Nat) (cursor : Cursor) :
    sequenceFrom separator entry room items height cursor =
      (((sequence separator entry).run room cursor).map fun found =>
        (items.reverse ++ found.1, found.2)).above height := by
  show _ = ((sequenceFrom separator entry room [] 0 cursor).map _).above height
  generalize size : cursor.remaining.length = length
  induction length using Nat.strongRecOn generalizing items height cursor with
  | ind length continued =>
    rw [sequenceFrom_step, sequenceFrom_step _ _ _ []]
    cases ran : entry.run room cursor with
    | failed error after => rfl
    | done found more after =>
      cases found with
      | last result => simp [Outcome.map, Outcome.above]
      | item value =>
        by_cases separated : after.current? = some separator
        · have shorter : after.advance.remaining.length < length :=
            size ▸ Nat.lt_of_lt_of_le (Cursor.advance_lt separated) (length_le ran)
          simp only [if_pos separated]
          rw [continued _ shorter (value :: items) _ _ rfl, continued _ shorter [value] _ _ rfl]
          cases sequenceFrom separator entry room [] 0 after.advance with
          | failed error last => rfl
          | done rest most last => simp [Outcome.map, Outcome.above, Nat.max_assoc]
        · simp only [if_neg separated]
          rfl

/-- A sequence is its first entry and, if that is no end, the sequence after the separator. -/
theorem run_sequence (separator : Token) (entry : Parser (Entry α β)) :
    (sequence separator entry).run = (do
      match ← entry with
      | .last result => return ([], result)
      | .item value =>
        let _ ← expect separator
        let (values, result) ← sequence separator entry
        return (value :: values, result) : Parser (List α × β)).run := by
  funext room cursor
  show sequenceFrom separator entry room [] 0 cursor = _
  rw [run_bind, sequenceFrom_step]
  cases ran : entry.run room cursor with
  | failed error after => rfl
  | done found more after =>
    cases found with
    | last result => simp [run_pure, Outcome.above]
    | item value =>
      dsimp only
      rw [run_bind, run_expect]
      by_cases separated : after.current? = some separator
      · simp only [if_pos separated]
        rw [sequenceFrom_eq, run_last _ fun found : List α × β => (value :: found.1, found.2)]
        cases (sequence separator entry).run room after.advance with
        | failed error last => rfl
        | done rest most last => simp [Outcome.map, Outcome.above]
      · simp only [if_neg separated]
        rfl

/-! ### Opened lists -/

/-- The items found before the rest of an opened list are put before those of the rest. -/
theorem openedFrom_eq (opener : Token) (item : Span → Parser α) (room : Nat) (items : List α)
    (height : Nat) (cursor : Cursor) :
    openedFrom opener item room items height cursor =
      (((opened opener item).run room cursor).map fun values => items.reverse ++ values).above
        height := by
  show _ = ((openedFrom opener item room [] 0 cursor).map _).above height
  generalize size : cursor.remaining.length = length
  induction length using Nat.strongRecOn generalizing items height cursor with
  | ind length continued =>
    rw [openedFrom_step, openedFrom_step _ _ _ []]
    by_cases opens : cursor.current? = some opener
    · simp only [if_pos opens]
      cases ran : (item cursor.span).run room cursor.advance with
      | failed error after => rfl
      | done value more after =>
        have shorter : after.remaining.length < length :=
          size ▸ Nat.lt_of_le_of_lt (length_le ran) (Cursor.advance_lt opens)
        dsimp only
        rw [continued _ shorter (value :: items) _ _ rfl, continued _ shorter [value] _ _ rfl]
        cases openedFrom opener item room [] 0 after with
        | failed error last => rfl
        | done rest most last => simp [Outcome.map, Outcome.above, Nat.max_assoc]
    · simp only [if_neg opens]
      simp [Outcome.map, Outcome.above]

/-- An opened list is its first item and the opened list after it, or else it is empty. -/
theorem run_opened (opener : Token) (item : Span → Parser α) :
    (opened opener item).run = (do
      match ← accept opener with
      | some span =>
        let value ← item span
        let values ← opened opener item
        return value :: values
      | none => return [] : Parser (List α)).run := by
  funext room cursor
  show openedFrom opener item room [] 0 cursor = _
  rw [run_bind, run_accept, openedFrom_step]
  by_cases opens : cursor.current? = some opener
  · simp only [if_pos opens]
    rw [run_bind]
    cases ran : (item cursor.span).run room cursor.advance with
    | failed error after => rfl
    | done value more after =>
      dsimp only
      rw [openedFrom_eq, run_last]
      cases (opened opener item).run room after with
      | failed error last => rfl
      | done rest most last => simp [Outcome.map, Outcome.above]
  · simp only [if_neg opens]
    rfl

/-! ### Items up to the end of the input -/

/-- The items found before the rest are put before those of the rest. -/
theorem untilEndFrom_eq (item : Parser α) (advances : item.Advances) (room : Nat)
    (items : List α) (height : Nat) (cursor : Cursor) :
    untilEndFrom item advances room items height cursor =
      (((untilEnd item advances).run room cursor).map fun values => items.reverse ++ values).above
        height := by
  show _ = ((untilEndFrom item advances room [] 0 cursor).map _).above height
  generalize size : cursor.remaining.length = length
  induction length using Nat.strongRecOn generalizing items height cursor with
  | ind length continued =>
    rw [untilEndFrom_step, untilEndFrom_step _ _ _ []]
    split
    · simp [Outcome.map, Outcome.above]
    · cases ran : item.run room cursor with
      | failed error after => rfl
      | done value more after =>
        have shorter : after.remaining.length < length := size ▸ advances _ _ _ _ _ ran
        dsimp only
        rw [continued _ shorter (value :: items) _ _ rfl, continued _ shorter [value] _ _ rfl]
        cases untilEndFrom item advances room [] 0 after with
        | failed error last => rfl
        | done rest most last => simp [Outcome.map, Outcome.above, Nat.max_assoc]

/-- The items up to the end are the first item and those after it, or else there are none. -/
theorem run_untilEnd (item : Parser α) (advances : item.Advances) :
    (untilEnd item advances).run = (do
      match ← current with
      | none => return []
      | some _ =>
        let value ← item
        let values ← untilEnd item advances
        return value :: values : Parser (List α)).run := by
  funext room cursor
  show untilEndFrom item advances room [] 0 cursor = _
  rw [run_bind, untilEndFrom_step]
  simp only [current, look, Cursor.current?]
  cases remaining : cursor.remaining with
  | nil => rfl
  | cons token rest =>
    simp only [List.head?_cons, Option.map_some]
    rw [run_bind]
    cases ran : item.run room cursor with
    | failed error after => rfl
    | done value more after =>
      dsimp only
      rw [untilEndFrom_eq, run_last]
      cases (untilEnd item advances).run room after with
      | failed error last => rfl
      | done rest most last => simp [Outcome.map, Outcome.above]

end Parser

end ContractSyntax
