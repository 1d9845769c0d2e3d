/-
**Recovery makes progress and passes over no definition.**

Each attempt to read a definition moves on. One that starts at a token that starts a definition takes
this token itself, so the token that is given up behind an attempt that goes nowhere is never one of
them; and recovery stops in front of the next.

* `Parser.item_leaves`: a definition takes the token that starts it;
* `Session.attempt_orderly`: what one attempt does;
* `attempts_consume`: what a reading below its limit does, over every row of tokens.
-/

import ContractSyntax.Proofs.Failure.Item
import ContractSyntax.Proofs.Language.Headwords
import ContractSyntax.Proofs.Recovery.Modes
import Mathlib.Logic.ExistsUnique

namespace ContractSyntax

/-! ### A definition takes the token that starts it -/

namespace Parser

variable {α β : Type}

/-- Every run from the cursor passes the token there, whether it succeeds or fails. -/
def Leaves (parser : Parser α) (cursor : Cursor) : Prop :=
  ∀ room, cursor.advance.Reaches (parser.run room cursor).cursor

namespace Leaves

variable {parser : Parser α} {next : α → Parser β} {cursor : Cursor} {token : Token}

theorem bind (leaves : parser.Leaves cursor) : (parser >>= next).Leaves cursor := by
  intro room
  have first := leaves room
  rw [run_bind]
  generalize parser.run room cursor = outcome at first
  cases outcome with
  | done value height middle =>
    dsimp only
    rw [Outcome.cursor_above]
    exact first.trans ((next value).forward room middle)
  | failed error middle => exact first

/-- What comes before passes nothing. -/
theorem after {found : α} (ran : ∀ room, parser.run room cursor = .done found 0 cursor)
    (leaves : (next found).Leaves cursor) : (parser >>= next).Leaves cursor := by
  intro room
  rw [run_bind, ran]
  dsimp only
  rw [Outcome.cursor_above]
  exact leaves room

theorem pass : Parser.pass.Leaves cursor := fun _ => .refl _

theorem expect (here : cursor.current? = some token) : (Parser.expect token).Leaves cursor :=
  .after (fun _ => rfl) <| by
    rw [if_pos here]
    exact pass

theorem accept (here : cursor.current? = some token) : (Parser.accept token).Leaves cursor :=
  .after (fun _ => rfl) <| by
    rw [if_pos here]
    exact .bind pass

theorem opened {item : Span → Parser α} (here : cursor.current? = some token) :
    (Parser.opened token item).Leaves cursor := by
  intro room
  show cursor.advance.Reaches (openedFrom token item room [] 0 cursor).cursor
  rw [openedFrom_step, if_pos here]
  have first := (item cursor.span).forward room cursor.advance
  generalize (item cursor.span).run room cursor.advance = outcome at first
  cases outcome with
  | done value height middle => exact first.trans (reaches_openedFrom _ _ _ _ _ _)
  | failed error middle => exact first

end Leaves

theorem run_attributes_of_ne {cursor : Cursor} (other : cursor.current? ≠ some (.symbol .at_))
    (room : Nat) : attributes.run room cursor = .done [] 0 cursor := by
  show openedFrom _ _ room [] 0 cursor = _
  rw [openedFrom_step, if_neg other]
  rfl

theorem run_accept_of_ne {cursor : Cursor} {token : Token} (other : cursor.current? ≠ some token)
    (room : Nat) : (accept token).run room cursor = .done none 0 cursor := by
  simp only [accept, run_bind, current, look, if_neg other]
  rfl

/-- Before the word for a definition nothing else has been written. -/
theorem run_header_of_ne {cursor : Cursor} (unmarked : cursor.current? ≠ some (.symbol .at_))
    (unshown : cursor.current? ≠ some (.keyword .pub)) (room : Nat) :
    header.run room cursor = .done ⟨cursor.span, [], .hidden⟩ 0 cursor := by
  simp only [header, visibility, run_bind, Parser.here, look, run_attributes_of_ne unmarked,
    run_accept_of_ne unshown]
  rfl

/-- The word for a definition is passed when it is the next token. -/
theorem itemBody_leaves {cursor : Cursor} {token : Token} (here : cursor.current? = some token)
    (defines : definesItem token = true) {header : Header} (plain : header.isPlain = true) :
    (itemBody header).Leaves cursor := by
  refine .after (fun _ => rfl) ?_
  rw [here]
  unfold definesItem at defines
  split at defines
  · exact .bind (.bind (.expect here))
  · exact .bind (.bind (.expect here))
  · exact .bind (.bind (.expect here))
  · dsimp only
    rw [if_pos plain]
    exact .bind (.bind (.expect here))
  · cases defines

/-- A definition takes the token that starts it. -/
theorem item_leaves {cursor : Cursor} {token : Token} (here : cursor.current? = some token)
    (starts : startsItem token = true) : item.Leaves cursor := by
  by_cases marked : cursor.current? = some (.symbol .at_)
  · exact .bind (.after (fun _ => rfl) (.bind (.opened marked)))
  by_cases shown : cursor.current? = some (.keyword .pub)
  · exact .bind (.after (fun _ => rfl) (.after (run_attributes_of_ne marked)
      (.bind (.bind (.accept shown)))))
  have defines : definesItem token = true := by
    rw [here] at marked shown
    unfold startsItem at starts
    split at starts <;> first | rfl | simp_all
  exact .after (run_header_of_ne marked shown) (.bind (itemBody_leaves here defines rfl))

end Parser

/-! ### Where recovery goes on -/

/-- A search passes over tokens that it does not stop at, and stops at one that it does or at the
end. -/
theorem Cursor.passes_seek (stops : Token → Bool) (cursor : Cursor) :
    ∃ tokens, Passes tokens cursor (cursor.seek stops) ∧
      (∀ token ∈ tokens, stops token.node = false) ∧
      ∀ token, (cursor.seek stops).current? = some token → stops token = true := by
  fun_induction Cursor.seek stops cursor with
  | case1 cursor ended =>
    refine ⟨[], passes_nil cursor, List.forall_mem_nil _, fun token current => ?_⟩
    rw [ended] at current
    cases current
  | case2 cursor first current found =>
    refine ⟨[], passes_nil cursor, List.forall_mem_nil _, fun token same => ?_⟩
    rw [current] at same
    cases same
    exact found
  | case3 cursor first current other continued =>
    obtain ⟨tokens, passes, passed, found⟩ := continued
    refine ⟨_, (passes_advance current).trans passes, ?_, found⟩
    exact List.forall_mem_cons.mpr ⟨by simpa using other, passed⟩

/-- Recovery passes over no token that starts a definition, if the one that it gives up is none. -/
theorem passes_resume {start failed : Cursor}
    (stuck : failed.index = start.index → ∀ token, failed.current? = some token →
      startsItem token = false) :
    ∃ tokens, Cursor.Passes tokens failed (resume start failed) ∧
      (∀ token ∈ tokens, startsItem token.node = false) ∧
      ∀ token, (resume start failed).current? = some token → startsItem token = true := by
  have noted (cursor : Cursor) (event : Event) : Cursor.Passes [] cursor (cursor.note event) :=
    ⟨rfl, rfl, rfl, rfl⟩
  unfold resume
  split
  · next same =>
    obtain ⟨tokens, passes, passed, found⟩ := failed.advance.passes_seek startsItem
    cases current : failed.current? with
    | none =>
      have ended : failed.advance = failed := by
        have none : failed.remaining = [] := by simpa [Cursor.current?] using current
        simp only [Cursor.advance, none]
      rw [ended] at passes found ⊢
      exact ⟨tokens, by simpa using passes.trans (noted _ _), passed, found⟩
    | some token =>
      refine ⟨_, ((Cursor.passes_advance current).trans passes).trans (noted _ _), ?_, found⟩
      simpa using ⟨stuck same token current, passed⟩
  · obtain ⟨tokens, passes, passed, found⟩ := failed.passes_seek startsItem
    exact ⟨tokens, by simpa using passes.trans (noted _ _), passed, found⟩

/-! ### One attempt -/

/-- What an attempt does. -/
structure Attempt.Orderly (attempt : Attempt) : Prop where
  reaches : attempt.start.Reaches attempt.stopped
  recovers : attempt.stopped.Reaches attempt.next.cursor
  advances : attempt.start.index < attempt.next.cursor.index
  /-- Recovery passes over no token that starts a definition. -/
  skips : ∀ token ∈ attempt.skipped, startsItem token.node = false
  /-- Nothing that was passed inside a definition starts another. -/
  contained : Contained (nodes attempt.passed)
  /-- An error is about a token of the attempt, and not about the one that starts the definition. -/
  fails : ∀ error, attempt.error? = some error → ∃ cause place, error = place.error cause ∧
    attempt.start.Reaches place ∧ place.Reaches attempt.stopped ∧
    ∀ token, attempt.start.current? = some token → startsItem token = true →
      attempt.start.index < place.index
  /-- Behind an error the reading goes on at a token that starts a definition. -/
  resumes : attempt.error?.isSome = true → ∀ token, attempt.next.cursor.current? = some token →
    startsItem token = true

/-- The beginning of a definition in which nothing starts another. -/
theorem BeginsSentence.contained {tokens : List Token} (begins : BeginsSentence .item tokens) :
    Contained tokens := by
  obtain ⟨rest, sentence⟩ := begins
  exact (List.pairwise_append.mp sentence.contained).1

/-- A number may stand for another behind the word for a definition. -/
theorem Contained.replace {tokens : List Token} {digits other : String}
    (contained : Contained (tokens ++ [.int digits])) : Contained (tokens ++ [.int other]) := by
  obtain ⟨before, _, _⟩ := List.pairwise_append.mp contained
  refine List.pairwise_append.mpr ⟨before, List.pairwise_singleton _ _, ?_⟩
  rintro earlier - later member -
  rw [List.mem_singleton.mp member]
  rfl

theorem Cursor.Passes.index_le {tokens : Tokens} {earlier later : Cursor}
    (passes : Passes tokens earlier later) : earlier.index ≤ later.index := by
  rw [passes.index]
  exact Nat.le_add_right _ _

theorem Cursor.Reaches.index_lt {earlier later : Cursor} (reached : earlier.Reaches later)
    (fewer : later.remaining.length < earlier.remaining.length) : earlier.index < later.index := by
  obtain ⟨tokens, passes⟩ := reached
  rw [passes.remaining, List.length_append] at fewer
  rw [passes.index]
  omega

/-- A cursor that no token has been passed from still stands at the same token. -/
theorem Cursor.Reaches.current?_eq {earlier later : Cursor} (reached : earlier.Reaches later)
    (same : later.index = earlier.index) : later.current? = earlier.current? := by
  obtain ⟨tokens, passes⟩ := reached
  have none : tokens = [] := List.length_eq_zero_iff.mp (by have := passes.index; omega)
  rw [Cursor.current?, Cursor.current?, passes.remaining, none, List.nil_append]

namespace Session

variable {session : Session}

/-- An attempt at a token that starts a definition takes this token. -/
theorem read_leaves {token : Token} (here : session.cursor.current? = some token)
    (starts : startsItem token = true) :
    session.cursor.index < (session.read Parser.item).2.cursor.index := by
  have leaves := Parser.item_leaves here starts (nestingLimit - session.nesting.depth)
  have next := (Cursor.passes_advance here).index
  have stopped : session.cursor.advance.Reaches (session.read Parser.item).2.cursor := by
    rcases session.read_eq Parser.item with ⟨_, _, _, ran, _, same, _⟩ | ⟨_, _, ran, _, same, _⟩
    · rw [ran] at leaves
      exact same ▸ leaves
    · rw [ran] at leaves
      exact same ▸ leaves
  obtain ⟨tokens, passes⟩ := stopped
  have := passes.index_le
  rw [List.length_singleton] at next
  omega

/-- The run behind a reading of a definition. -/
theorem run_of_read {result : Except SyntaxError Item} {after : Session}
    (ran : session.read Parser.item = (result, after)) :
    let room := nestingLimit - session.nesting.depth
    (∃ item height, result = .ok item ∧
      Parser.item.run room session.cursor = .done item height after.cursor) ∨
    ∃ error, result = .error error ∧
      Parser.item.run room session.cursor = .failed error after.cursor := by
  rcases session.read_eq Parser.item with ⟨item, height, _, same, read, stopped, _⟩ |
    ⟨error, _, same, read, stopped, _⟩
  · rw [ran] at read stopped
    exact .inl ⟨item, height, read, stopped ▸ same⟩
  · rw [ran] at read stopped
    exact .inr ⟨error, read, stopped ▸ same⟩

theorem attempt_orderly_of_ok {after : Session} {item : Item}
    (ran : session.read Parser.item = (.ok item, after)) : session.attempt.Orderly := by
  have reached := reaches_of_read ran
  rw [attempt_of_ok ran]
  exact {
    reaches := reached
    recovers := .refl _
    advances := reached.index_lt (read_lt Parser.item_advances ran)
    skips := by
      rw [Attempt.skipped, (Cursor.passes_nil after.cursor).upTo_eq]
      exact List.forall_mem_nil _
    contained := by
      obtain ⟨_, height, same, run⟩ | ⟨_, same, _⟩ := run_of_read ran
      · obtain ⟨tokens, passes, sentence⟩ := Parser.Follows.item.sentence _ _ _ _ run
        rw [Attempt.passed, passes.upTo_eq]
        exact sentence.contained
      · cases same
    fails := nofun
    resumes := nofun }

/-- Where a reading of a definition fails: the tokens before have nothing in them that starts another
definition, and the token that starts this one has been passed. -/
theorem stopped_of_error {after : Session} {error : SyntaxError}
    (ran : session.read Parser.item = (.error error, after)) :
    Contained (nodes (session.cursor.upTo after.cursor)) ∧
      ∃ cause place, error = place.error cause ∧ session.cursor.Reaches place ∧
        place.Reaches after.cursor ∧
        ∀ token, session.cursor.current? = some token → startsItem token = true →
          session.cursor.index < place.index := by
  obtain ⟨_, _, same, _⟩ | ⟨_, same, failed⟩ := run_of_read ran
  · cases same
  cases same
  have stopped := Parser.Follows.item.fails _ _ _ failed
  generalize ended : after.cursor = stop at stopped
  cases stopped with
  | @here cause before _ passes begun =>
    refine ⟨?_, cause, stop, rfl, ⟨_, passes⟩, .refl _, fun token here starts => ?_⟩
    · rw [passes.upTo_eq]
      exact (BeginsSentence.of_starts begun trivial).contained
    · have leaves := read_leaves here starts
      rw [ran, ended] at leaves
      exact leaves
  | @behind digits before place passes current begun =>
    refine ⟨?_, _, place, rfl, ⟨_, passes⟩, place.reaches_advance, fun token here starts => ?_⟩
    · rw [(passes.trans (Cursor.passes_advance current)).upTo_eq, nodes, List.map_append]
      exact (BeginsSentence.of_starts begun trivial).contained.replace
    · refine Nat.lt_of_le_of_ne passes.index_le fun same => ?_
      have unmoved := Cursor.Reaches.current?_eq ⟨_, passes⟩ same.symm
      rw [current, here] at unmoved
      cases unmoved
      cases starts

theorem attempt_orderly_of_error {after : Session} {error : SyntaxError}
    (more : session.cursor.remaining ≠ [])
    (ran : session.read Parser.item = (.error error, after)) : session.attempt.Orderly := by
  have reached := reaches_of_read ran
  have shorter := attempt_lt more
  rw [attempt_of_error ran] at shorter ⊢
  have noted : Cursor.Passes [] after.cursor
      (after.cursor.note (.failed session.cursor.index error)) := ⟨rfl, rfl, rfl, rfl⟩
  -- Recovery gives up a token only where the attempt has taken none.
  have stuck (same : (after.cursor.note (.failed session.cursor.index error)).index =
      session.cursor.index) (token : Token) (current : after.cursor.current? = some token) :
      startsItem token = false := by
    refine Bool.eq_false_iff.mpr fun starts => ?_
    have leaves := read_leaves (reached.current?_eq same ▸ current) starts
    rw [ran] at leaves
    exact absurd same (Nat.ne_of_gt leaves)
  obtain ⟨tokens, passes, skipped, found⟩ := passes_resume stuck
  have recovers := noted.trans passes
  obtain ⟨contained, located⟩ := stopped_of_error ran
  exact {
    reaches := reached
    recovers := ⟨_, recovers⟩
    advances := (reached.trans ⟨_, recovers⟩).index_lt shorter
    skips := by
      rw [Attempt.skipped, recovers.upTo_eq]
      exact skipped
    contained := contained
    fails := by
      rintro _ ⟨⟩
      exact located
    resumes := fun _ => found }

theorem attempt_orderly (more : session.cursor.remaining ≠ []) : session.attempt.Orderly := by
  rcases ran : session.read Parser.item with ⟨error | item, after⟩
  · exact attempt_orderly_of_error more ran
  · exact attempt_orderly_of_ok ran

/-! ### All attempts -/

theorem attempts_orderly (session : Session) : ∀ attempt ∈ session.attempts, attempt.Orderly := by
  fun_induction Session.attempts session with
  | case1 session ended => exact List.forall_mem_nil _
  | case2 session first rest more continued =>
    exact List.forall_mem_cons.mpr ⟨attempt_orderly (by simp [more]), continued⟩

theorem atEnd_remaining (session : Session) : session.atEnd.cursor.remaining = [] := by
  fun_induction Session.attempts session with
  | case1 session ended => rw [atEnd_of_ended ended, ended]
  | case2 session first rest more continued => rw [atEnd_of_more (by simp [more]), continued]

theorem attempt_start (session : Session) : session.attempt.start = session.cursor := by
  unfold attempt
  split <;> rfl

end Session

namespace Attempt.Orderly

variable {attempt : Attempt}

theorem index_stopped (orderly : attempt.Orderly) :
    attempt.stopped.index = attempt.start.index + attempt.passed.length :=
  orderly.reaches.passes_upTo.index

theorem index_next (orderly : attempt.Orderly) :
    attempt.next.cursor.index = attempt.stopped.index + attempt.skipped.length :=
  orderly.recovers.passes_upTo.index

/-- The tokens of an attempt are those that it passes and those that recovery passes over. -/
theorem remaining (orderly : attempt.Orderly) :
    attempt.start.remaining = attempt.passed ++ attempt.skipped ++ attempt.next.cursor.remaining :=
  (orderly.reaches.passes_upTo.trans orderly.recovers.passes_upTo).remaining

end Attempt.Orderly

namespace Session

/-- All tokens are passed by the attempts or passed over behind them. -/
theorem remaining_eq (session : Session) :
    session.cursor.remaining =
      session.attempts.flatMap fun attempt => attempt.passed ++ attempt.skipped := by
  fun_induction Session.attempts session with
  | case1 session ended => exact ended
  | case2 session first rest more continued =>
    have whole := (@attempt_orderly session (by simp [more])).remaining
    rw [List.flatMap_cons, ← continued, ← whole, attempt_start]

/-- Every attempt starts where the session stands, or behind that. -/
theorem reaches_start (session : Session) :
    ∀ attempt ∈ session.attempts, session.cursor.Reaches attempt.start := by
  fun_induction Session.attempts session with
  | case1 session ended => exact List.forall_mem_nil _
  | case2 session first rest more continued =>
    have orderly := @attempt_orderly session (by simp [more])
    have next := orderly.reaches.trans orderly.recovers
    rw [attempt_start] at next
    refine List.forall_mem_cons.mpr ⟨?_, fun attempt member => next.trans (continued attempt member)⟩
    rw [attempt_start]

/-- Each attempt starts where one before went on, or behind that. -/
theorem attempts_ordered (session : Session) :
    session.attempts.Pairwise fun first later =>
      first.next.cursor.index ≤ later.start.index := by
  fun_induction Session.attempts session with
  | case1 session ended => exact .nil
  | case2 session first rest more continued =>
    refine List.pairwise_cons.mpr ⟨fun later member => ?_, continued⟩
    obtain ⟨tokens, passes⟩ := reaches_start session.attempt.next later member
    exact passes.index_le

/-- A token that starts a definition is passed by an attempt. -/
theorem exists_attempt {session : Session} {index : Nat} {token : Spanned Token}
    (here : session.cursor.remaining[index]? = some token) (starts : startsItem token.node = true) :
    ∃ (place : Nat) (attempt : Attempt), session.attempts[place]? = some attempt ∧
      attempt.start.index ≤ session.cursor.index + index ∧
      session.cursor.index + index < attempt.stopped.index := by
  fun_induction Session.attempts session generalizing index with
  | case1 session ended => simp [ended] at here
  | case2 session first rest more continued =>
    have orderly := @attempt_orderly session (by simp [more])
    have whole := orderly.remaining
    have stopped := orderly.index_stopped
    have next := orderly.index_next
    rw [attempt_start] at whole stopped
    rw [whole] at here
    rcases Nat.lt_or_ge index session.attempt.passed.length with inside | behind
    · refine ⟨0, session.attempt, rfl, ?_, by omega⟩
      rw [attempt_start]
      exact Nat.le_add_right _ _
    rcases Nat.lt_or_ge index (session.attempt.passed ++ session.attempt.skipped).length with
      skipped | after
    · rw [List.getElem?_append_left skipped, List.getElem?_append_right behind] at here
      have other := orderly.skips token (List.mem_of_getElem? here)
      rw [starts] at other
      cases other
    · rw [List.getElem?_append_right after] at here
      obtain ⟨place, attempt, found, before, within⟩ := continued here
      rw [List.length_append] at before within after
      exact ⟨place + 1, attempt, found, by omega, by omega⟩

/-- An attempt has stopped before another starts. -/
theorem stopped_le_start {session : Session} {first second : Nat} {earlier later : Attempt}
    (before : first < second) (found : session.attempts[first]? = some earlier)
    (found' : session.attempts[second]? = some later) :
    earlier.stopped.index ≤ later.start.index := by
  have orderly := session.attempts_orderly earlier (List.mem_of_getElem? found)
  obtain ⟨inside, rfl⟩ := List.getElem?_eq_some_iff.mp found
  obtain ⟨inside', rfl⟩ := List.getElem?_eq_some_iff.mp found'
  have ordered := List.pairwise_iff_getElem.mp session.attempts_ordered _ _ inside inside' before
  exact Nat.le_trans (Nat.le.intro orderly.index_next.symm) ordered

end Session

end ContractSyntax
