/-
**Sessions in step.**

Two sessions are in step if moving each in its own way gives them the same ahead. No parser computes
with offsets except by merging spans, and what is behind a cursor makes no difference; so sessions in
step make the same attempts and stay in step behind each of them, and what the attempts find is the
same once it is moved.

* `InStep.read`: one reading of two sessions in step;
* `InStep.found`: all definitions and errors that attempts find.
-/

import ContractSyntax.Proofs.Recovery.Attempts
import ContractSyntax.Proofs.Relocation.Program
import ContractSyntax.Proofs.Sessions.Calls

namespace ContractSyntax

instance : Relocate SyntaxError := ⟨SyntaxError.relocate⟩

/-- The result with its spans moved. -/
def relocateResult {ε α : Type} [Relocate ε] [Relocate α] (move : Relocation) :
    Except ε α → Except ε α
  | .ok value => .ok (relocate move value)
  | .error error => .error (relocate move error)

instance {ε α : Type} [Relocate ε] [Relocate α] : Relocate (Except ε α) := ⟨relocateResult⟩

theorem relocate_toList_append {α : Type} [Relocate α] (move : Relocation) (first : Option α)
    (rest : List α) :
    relocate move (first.toList ++ rest) = (relocate move first).toList ++ relocate move rest := by
  cases first <;> rfl

/-! ### Readings by their runs -/

section Outcomes

variable {α : Type}

theorem Outcome.result_relocate [Relocate α] (move : Relocation) (outcome : Outcome α) :
    (outcome.relocate move).result = ContractSyntax.relocate move outcome.result := by
  cases outcome <;> rfl

theorem Outcome.cursor_relocate [Relocate α] (move : Relocation) (outcome : Outcome α) :
    (outcome.relocate move).cursor = outcome.cursor.relocate move := by
  cases outcome <;> rfl

end Outcomes

/-! ### Recovery from moved cursors -/

theorem Cursor.seek_relocate (move : Relocation) (stops : Token → Bool) (cursor : Cursor) :
    (cursor.relocate move).seek stops = (cursor.seek stops).relocate move := by
  fun_induction Cursor.seek stops cursor with
  | case1 cursor ended => rw [Cursor.seek_step, current?_relocate, ended]
  | case2 cursor token found here =>
    rw [Cursor.seek_step, current?_relocate, found]
    simp only [if_pos here]
  | case3 cursor token found moves continued =>
    rw [Cursor.seek_step, current?_relocate, found]
    simp only [if_neg moves, advance_relocate, continued]

theorem Cursor.stopAfter_relocate (move : Relocation) (stop : Nat) (tokens : Tokens) :
    stopAfter (move.offset stop) (ContractSyntax.relocate move tokens) =
      move.offset (stopAfter stop tokens) := by
  induction tokens generalizing stop with
  | nil => rfl
  | cons token rest continued => exact continued token.span.stop

theorem Cursor.Reaches.relocate {earlier later : Cursor} (reached : earlier.Reaches later)
    (move : Relocation) : (earlier.relocate move).Reaches (later.relocate move) := by
  obtain ⟨tokens, passes⟩ := reached
  refine ⟨ContractSyntax.relocate move tokens, ?_⟩
  exact {
    remaining := (congrArg (ContractSyntax.relocate move) passes.remaining).trans List.map_append
    index := passes.index.trans (congrArg _ (List.length_map _).symm)
    lastStop := (congrArg move.offset passes.lastStop).trans (stopAfter_relocate move _ _).symm
    endOffset := congrArg move.offset passes.endOffset }

theorem resume_relocate (move : Relocation) (start failed : Cursor) :
    resume (start.relocate move) (failed.relocate move) = (resume start failed).relocate move := by
  have stuck : (if failed.index = start.index then failed.advance.relocate move
      else failed.relocate move) =
      (if failed.index = start.index then failed.advance else failed).relocate move := by
    split <;> rfl
  unfold resume
  dsimp only
  rw [Cursor.advance_relocate, show (failed.relocate move).index = failed.index from rfl,
    show (start.relocate move).index = start.index from rfl, stuck, Cursor.seek_relocate]
  rfl

/-! ### Sessions in step -/

/-- Whether two sessions are at the same level and have the same ahead, once each is moved. -/
structure Session.InStep (move other : Relocation) (first second : Session) : Prop where
  depth : first.nesting.depth = second.nesting.depth
  ahead : (first.cursor.relocate move).Alike False (second.cursor.relocate other)

namespace Session.InStep

variable {move other : Relocation} {first second : Session}

theorem length_eq (inStep : InStep move other first second) :
    first.cursor.remaining.length = second.cursor.remaining.length := by
  have same := congrArg List.length inStep.ahead.remaining
  simpa [Cursor.relocate, relocate] using same

/-- One reading of sessions in step gives the same, once it is moved, and leaves them in step. -/
theorem read {α : Type} [Relocate α] {parser : Parser α} (looks : parser.LooksAhead False)
    (moves : Parser.Moves move parser parser) (moves' : Parser.Moves other parser parser)
    (inStep : InStep move other first second) :
    relocate move (first.read parser).1 = relocate other (second.read parser).1 ∧
      InStep move other (first.read parser).2 (second.read parser).2 := by
  have ran := looks.same (nestingLimit - first.nesting.depth) inStep.ahead
  rw [moves, moves'] at ran
  have results := ran.result_eq
  have cursors := ran.cursor
  rw [Outcome.result_relocate, Outcome.result_relocate] at results
  rw [Outcome.cursor_relocate, Outcome.cursor_relocate] at cursors
  obtain ⟨gave, stopped⟩ := first.read_run parser
  obtain ⟨gave', stopped'⟩ := second.read_run parser
  rw [← inStep.depth] at gave' stopped'
  refine ⟨by rw [gave, gave', results], ?_, by rw [stopped, stopped']; exact cursors⟩
  rw [depth_read, depth_read, inStep.depth]

theorem resume {failed failed' : Cursor} (inStep : InStep move other first second)
    (fails : (failed.relocate move).Alike False (failed'.relocate other))
    (reached : first.cursor.Reaches failed) (reached' : second.cursor.Reaches failed') :
    ((ContractSyntax.resume first.cursor failed).relocate move).Alike False
      ((ContractSyntax.resume second.cursor failed').relocate other) := by
  rw [← resume_relocate, ← resume_relocate]
  exact inStep.ahead.resume fails (reached.relocate move) (reached'.relocate other)

/-- Attempts of sessions in step find the same, once it is moved, and leave them in step. -/
theorem attempt (inStep : InStep move other first second) :
    relocate move first.attempt.item? = relocate other second.attempt.item? ∧
      relocate move first.attempt.error? = relocate other second.attempt.error? ∧
      InStep move other first.attempt.next second.attempt.next := by
  obtain ⟨gave, after⟩ := inStep.read .item .item .item
  rcases ran : first.read Parser.item with ⟨error | item, stopped⟩ <;>
  rcases ran' : second.read Parser.item with ⟨error' | item', stopped'⟩ <;>
  rw [ran, ran'] at gave after
  · rw [attempt_of_error ran, attempt_of_error ran']
    refine ⟨rfl, congrArg some (Except.error.inj gave), after.depth, ?_⟩
    exact inStep.resume (after.ahead.note _ _)
      ((reaches_of_read ran).trans (Cursor.reaches_note _ _))
      ((reaches_of_read ran').trans (Cursor.reaches_note _ _))
  · cases gave
  · cases gave
  · rw [attempt_of_ok ran, attempt_of_ok ran']
    exact ⟨congrArg some (Except.ok.inj gave), rfl, after⟩

/-- **All that attempts find is moved.** Sessions in step find the same definitions and the same
errors, once these are moved. -/
theorem found (inStep : InStep move other first second) :
    relocate move first.itemsFound = relocate other second.itemsFound ∧
      relocate move first.errorsFound = relocate other second.errorsFound := by
  fun_induction Session.attempts first generalizing second with
  | case1 first ended =>
    have ended' : second.cursor.remaining = [] := by
      simpa [ended] using inStep.length_eq.symm
    rw [itemsFound_of_ended ended, itemsFound_of_ended ended', errorsFound_of_ended ended,
      errorsFound_of_ended ended']
    exact ⟨rfl, rfl⟩
  | case2 first token rest more continued =>
    have more : first.cursor.remaining ≠ [] := by simp [more]
    have more' : second.cursor.remaining ≠ [] := by
      rw [← List.length_pos_iff] at more ⊢
      exact inStep.length_eq ▸ more
    obtain ⟨item, error, next⟩ := inStep.attempt
    obtain ⟨items, errors⟩ := continued next
    rw [itemsFound_of_more more, itemsFound_of_more more', errorsFound_of_more more,
      errorsFound_of_more more', relocate_toList_append, relocate_toList_append,
      relocate_toList_append, relocate_toList_append, item, error, items, errors]
    exact ⟨rfl, rfl⟩

end Session.InStep

end ContractSyntax
