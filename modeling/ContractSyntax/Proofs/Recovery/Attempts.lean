/-
**Reading with recovery, one attempt after the other.**

A reading with recovery is a row of attempts to read a definition. An attempt ends where the parser of
definitions stops; behind one that fails, recovery passes over tokens before the next attempt starts.
The attempts of a session are those that are made if no limit stops them. What a reading under a limit
comes to is read off from them, and so is what a reading up to the first error comes to.

* `Session.attempt_lt`: every attempt leaves fewer tokens, so there are finitely many;
* `collectFrom_errors`: a limit keeps the first errors of all attempts;
* `collectFrom_of_within`: below the limit, a reading is what all attempts together are;
* `program_start`: the first error of all attempts is the one at which a reading without recovery stops.
-/

import ContractSyntax.Grammar.Program
import ContractSyntax.Proofs.Derivation.Basic

namespace ContractSyntax

/-- The tokens from a cursor up to one that is reached from it. -/
def Cursor.upTo (earlier later : Cursor) : Tokens :=
  earlier.remaining.take (later.index - earlier.index)

theorem Cursor.Passes.upTo_eq {tokens : Tokens} {earlier later : Cursor}
    (passes : Passes tokens earlier later) : earlier.upTo later = tokens := by
  rw [Cursor.upTo, passes.remaining, passes.index, Nat.add_sub_cancel_left, List.take_left]

theorem Cursor.Reaches.passes_upTo {earlier later : Cursor} (reached : earlier.Reaches later) :
    Passes (earlier.upTo later) earlier later := by
  obtain ⟨tokens, passes⟩ := reached
  rwa [passes.upTo_eq]

/-- One attempt to read a definition. -/
structure Attempt where
  start : Cursor
  result : Except SyntaxError Item
  /-- Where the parser of definitions stopped. -/
  stopped : Cursor
  /-- The session behind the attempt and, if it failed, behind the recovery from it. -/
  next : Session

namespace Attempt

/-- The definition that was read. -/
def item? (attempt : Attempt) : Option Item :=
  match attempt.result with
  | .ok item => some item
  | .error _ => none

/-- The error at which the attempt failed. -/
def error? (attempt : Attempt) : Option SyntaxError :=
  match attempt.result with
  | .ok _ => none
  | .error error => some error

/-- The tokens that the attempt passes. -/
def passed (attempt : Attempt) : Tokens := attempt.start.upTo attempt.stopped

/-- The tokens that recovery passes over behind the attempt. -/
def skipped (attempt : Attempt) : Tokens := attempt.stopped.upTo attempt.next.cursor

end Attempt

namespace Session

/-- The attempt that starts where a session stands. -/
def attempt (session : Session) : Attempt :=
  match session.read Parser.item with
  | (.ok item, after) => ⟨session.cursor, .ok item, after.cursor, after⟩
  | (.error error, after) =>
    let noted := after.cursor.note (.failed session.cursor.index error)
    ⟨session.cursor, .error error, after.cursor, ⟨resume session.cursor noted, after.nesting⟩⟩

theorem attempt_of_ok {session after : Session} {item : Item}
    (ran : session.read Parser.item = (.ok item, after)) :
    session.attempt = ⟨session.cursor, .ok item, after.cursor, after⟩ := by
  rw [attempt, ran]

theorem attempt_of_error {session after : Session} {error : SyntaxError}
    (ran : session.read Parser.item = (.error error, after)) :
    session.attempt = ⟨session.cursor, .error error, after.cursor,
      ⟨resume session.cursor (after.cursor.note (.failed session.cursor.index error)),
        after.nesting⟩⟩ := by
  rw [attempt, ran]

/-- An attempt leaves fewer tokens, if there are any. -/
theorem attempt_lt {session : Session} (more : session.cursor.remaining ≠ []) :
    session.attempt.next.cursor.remaining.length < session.cursor.remaining.length := by
  rcases ran : session.read Parser.item with ⟨error | item, after⟩
  · rw [attempt_of_error ran]
    exact resume_lt ((reaches_of_read ran).trans (after.cursor.reaches_note _)) more
  · rw [attempt_of_ok ran]
    exact read_lt Parser.item_advances ran

/-- All attempts that are made if no limit stops them. -/
def attempts (session : Session) : List Attempt :=
  match _more : session.cursor.remaining with
  | [] => []
  | _ :: _ => session.attempt :: attempts session.attempt.next
termination_by session.cursor.remaining.length
decreasing_by exact attempt_lt (by simp [_more])

theorem attempts_of_ended {session : Session} (ended : session.cursor.remaining = []) :
    session.attempts = [] := by
  rw [attempts]
  split
  · rfl
  · next more => rw [ended] at more; cases more

theorem attempts_of_more {session : Session} (more : session.cursor.remaining ≠ []) :
    session.attempts = session.attempt :: session.attempt.next.attempts := by
  rw [attempts]
  split
  · next ended => exact absurd ended more
  · rfl

/-- The definitions that the attempts come to. -/
def itemsFound (session : Session) : List Item := session.attempts.filterMap Attempt.item?

/-- The errors that the attempts come to. -/
def errorsFound (session : Session) : List SyntaxError := session.attempts.filterMap Attempt.error?

/-- The session behind all attempts. -/
def atEnd (session : Session) : Session :=
  (session.attempts.getLast?.map Attempt.next).getD session

section Unfolding

variable {session after : Session}

theorem itemsFound_of_ended (ended : session.cursor.remaining = []) : session.itemsFound = [] := by
  rw [itemsFound, attempts_of_ended ended, List.filterMap_nil]

theorem errorsFound_of_ended (ended : session.cursor.remaining = []) :
    session.errorsFound = [] := by
  rw [errorsFound, attempts_of_ended ended, List.filterMap_nil]

theorem itemsFound_of_more (more : session.cursor.remaining ≠ []) :
    session.itemsFound = session.attempt.item?.toList ++ session.attempt.next.itemsFound := by
  rw [itemsFound, itemsFound, attempts_of_more more, List.filterMap_cons]
  cases session.attempt.item? <;> rfl

theorem errorsFound_of_more (more : session.cursor.remaining ≠ []) :
    session.errorsFound = session.attempt.error?.toList ++ session.attempt.next.errorsFound := by
  rw [errorsFound, errorsFound, attempts_of_more more, List.filterMap_cons]
  cases session.attempt.error? <;> rfl

theorem atEnd_of_ended (ended : session.cursor.remaining = []) : session.atEnd = session := by
  rw [atEnd, attempts_of_ended ended]
  rfl

/-- Behind an attempt the others are those of the session that goes on there. -/
theorem atEnd_of_more (more : session.cursor.remaining ≠ []) :
    session.atEnd = session.attempt.next.atEnd := by
  rw [atEnd, atEnd, attempts_of_more more, List.getLast?_cons]
  cases session.attempt.next.attempts.getLast? <;> rfl

theorem found_of_ok {item : Item} (more : session.cursor.remaining ≠ [])
    (ran : session.read Parser.item = (.ok item, after)) :
    session.itemsFound = item :: after.itemsFound ∧ session.errorsFound = after.errorsFound ∧
      session.atEnd = after.atEnd := by
  rw [atEnd_of_more more]
  simp only [itemsFound, errorsFound, attempts_of_more more, attempt_of_ok ran, and_true]
  exact ⟨rfl, rfl⟩

theorem found_of_error {error : SyntaxError} (more : session.cursor.remaining ≠ [])
    (ran : session.read Parser.item = (.error error, after)) :
    let next : Session := ⟨resume session.cursor (after.cursor.note
      (.failed session.cursor.index error)), after.nesting⟩
    session.itemsFound = next.itemsFound ∧ session.errorsFound = error :: next.errorsFound ∧
      session.atEnd = next.atEnd := by
  rw [atEnd_of_more more]
  simp only [itemsFound, errorsFound, attempts_of_more more, attempt_of_error ran, and_true]
  exact ⟨rfl, rfl⟩

end Unfolding

end Session

/-! ### Readings under a limit -/

/-- A reading under a limit finds the first errors of all attempts. -/
theorem collectFrom_errors (allowed : Nat) (items : List Item) (errors : List SyntaxError)
    (session : Session) :
    (collectFrom allowed items errors session).errors =
      errors.reverse ++ session.errorsFound.take (max allowed 1) := by
  fun_induction collectFrom allowed items errors session with
  | case1 allowed items errors session ended =>
    rw [Session.errorsFound_of_ended ended, List.take_nil, List.append_nil]
  | case2 allowed items errors session first rest more item after ran continued =>
    rw [continued, (Session.found_of_ok (by simp [more]) ran).2.1]
  | case3 allowed items errors session first rest more error after ran noted last =>
    rw [(Session.found_of_error (by simp [more]) ran).2.1, Nat.max_eq_right last]
    simp
  | case4 allowed items errors session first rest more error after ran noted others continued =>
    have limit : max allowed 1 = max (allowed - 1) 1 + 1 := by omega
    rw [continued, (Session.found_of_error (by simp [more]) ran).2.1, limit, List.take_succ_cons]
    simp [noted]

/-- A reading that stays below its limit is what all attempts together are. -/
theorem collectFrom_of_within {allowed : Nat} {items : List Item} {errors : List SyntaxError}
    {session : Session} (within : session.errorsFound.length < max allowed 1) :
    collectFrom allowed items errors session =
      ⟨items.reverse ++ session.itemsFound, errors.reverse ++ session.errorsFound,
        session.atEnd⟩ := by
  fun_induction collectFrom allowed items errors session with
  | case1 allowed items errors session ended =>
    rw [Session.itemsFound_of_ended ended, Session.errorsFound_of_ended ended,
      Session.atEnd_of_ended ended, List.append_nil, List.append_nil]
  | case2 allowed items errors session first rest more item after ran continued =>
    obtain ⟨itemsFound, errorsFound, atEnd⟩ := Session.found_of_ok (by simp [more]) ran
    rw [continued (errorsFound ▸ within), itemsFound, errorsFound, atEnd]
    simp
  | case3 allowed items errors session first rest more error after ran noted last =>
    rw [(Session.found_of_error (by simp [more]) ran).2.1, List.length_cons] at within
    omega
  | case4 allowed items errors session first rest more error after ran noted others continued =>
    obtain ⟨itemsFound, errorsFound, atEnd⟩ := Session.found_of_error (by simp [more]) ran
    rw [errorsFound, List.length_cons] at within
    have inside := Nat.lt_of_lt_of_le (Nat.lt_sub_of_add_lt within) (Nat.le_of_eq (by omega :
      max allowed 1 - 1 = max (allowed - 1) 1))
    rw [continued inside, itemsFound, errorsFound, atEnd]
    simp [noted]

theorem collect_errors (options : ParseOptions) (cursor : Cursor) :
    (collect options cursor).errors =
      (Session.fresh cursor).errorsFound.take (max options.errorLimit 1) :=
  collectFrom_errors options.errorLimit [] [] (Session.fresh cursor)

/-! ### Readings up to the first error -/

/-- What is made of the value of a parser changes nothing else. -/
theorem Parser.result_last {α β : Type} (parser : Parser α) (make : α → β) (nesting : Nesting)
    (cursor : Cursor) :
    ((parser >>= fun value => pure (make value)).count nesting cursor).result =
      (parser.count nesting cursor).result.map make := by
  show ((Parser.bind parser fun value => Parser.pure (make value)).count nesting cursor).result = _
  simp only [Parser.bind, Parser.pure]
  rcases parser.count nesting cursor with ⟨_ | _, _, _⟩ <;> rfl

theorem countUntilEndFrom_result (items : List Item) (nesting : Nesting) (cursor : Cursor) :
    (Parser.countUntilEndFrom Parser.item Parser.item_advances items nesting cursor).result =
      match (Session.mk cursor nesting).errorsFound.head? with
      | none => .ok (items.reverse ++ (Session.mk cursor nesting).itemsFound)
      | some error => .error error := by
  fun_induction Parser.countUntilEndFrom Parser.item Parser.item_advances items nesting cursor with
  | case1 items nesting cursor ended =>
    rw [Session.itemsFound_of_ended ended, Session.errorsFound_of_ended ended, List.append_nil]
    rfl
  | case2 items nesting cursor first rest more error later after ran =>
    have read : (Session.mk cursor nesting).read Parser.item = (.error error, ⟨after, later⟩) := by
      rw [Session.read, ran]
    rw [(Session.found_of_error (by simp [more]) read).2.1]
    rfl
  | case3 items nesting cursor first rest more item later after ran continued =>
    have read : (Session.mk cursor nesting).read Parser.item = (.ok item, ⟨after, later⟩) := by
      rw [Session.read, ran]
    obtain ⟨itemsFound, errorsFound, _⟩ := Session.found_of_ok (by simp [more]) read
    rw [continued, itemsFound, errorsFound, List.reverse_cons, List.append_assoc]
    rfl

/-- A reading up to the first error comes to the first error of all attempts, or to all they find. -/
theorem program_start (cursor : Cursor) :
    (Parser.program.start cursor).1 =
      match (Session.fresh cursor).errorsFound.head? with
      | none => .ok ⟨(Session.fresh cursor).itemsFound⟩
      | some error => .error error := by
  have same : (Parser.program.start cursor).1 =
      (Parser.countUntilEndFrom Parser.item Parser.item_advances [] .outermost cursor).result.map
        Program.mk := Parser.result_last _ Program.mk .outermost cursor
  rw [same, countUntilEndFrom_result [] .outermost cursor, List.reverse_nil, List.nil_append]
  show _ = match (Session.mk cursor .outermost).errorsFound.head? with
    | none => Except.ok (⟨(Session.mk cursor .outermost).itemsFound⟩ : Program)
    | some error => .error error
  cases (Session.mk cursor .outermost).errorsFound.head? <;> rfl

end ContractSyntax
