/-
**Sessions: one reading after another.**

A session is a parser between two readings: it keeps the cursor and the counters that the last
reading has left. Whatever is read, the reading goes on from there.

* `Session.read_eq`: a reading runs in the room that the counters leave;
* `Session.depth_read`: a reading leaves the level that it found, whether it succeeds or fails.
-/

import ContractSyntax.Parser.Basic

namespace ContractSyntax

/-- A parser between two readings. -/
structure Session where
  cursor : Cursor
  nesting : Nesting

namespace Session

variable {α : Type}

/-- The session that starts at a cursor. -/
def fresh (cursor : Cursor) : Session := ⟨cursor, .outermost⟩

/-- Runs a parser, and goes on from where the run has stopped. -/
def read (parser : Parser α) (session : Session) : Except SyntaxError α × Session :=
  let ended := parser.count session.nesting session.cursor
  (ended.result, ⟨ended.cursor, ended.nesting⟩)

variable (parser : Parser α) (session : Session)

/-- How a reading ends, given how a run does in the room that the counters leave. -/
theorem read_eq :
    (∃ value height after,
      parser.run (nestingLimit - session.nesting.depth) session.cursor = .done value height after ∧
      (session.read parser).1 = .ok value ∧ (session.read parser).2.cursor = after ∧
      session.nesting.Climbs height (session.read parser).2.nesting) ∨
    ∃ error after,
      parser.run (nestingLimit - session.nesting.depth) session.cursor = .failed error after ∧
      (session.read parser).1 = .error error ∧ (session.read parser).2.cursor = after ∧
      session.nesting.Settles (session.read parser).2.nesting := by
  have same := parser.agrees session.nesting session.cursor
  unfold read
  generalize parser.run (nestingLimit - session.nesting.depth) session.cursor = outcome,
    parser.count session.nesting session.cursor = counted at same
  cases same with
  | done climbs => exact .inl ⟨_, _, _, rfl, rfl, rfl, climbs⟩
  | failed settles => exact .inr ⟨_, _, rfl, rfl, rfl, settles⟩

/-- A reading settles the counters, whether it succeeds or fails. -/
theorem settles_read : session.nesting.Settles (session.read parser).2.nesting := by
  rcases session.read_eq parser with ⟨_, _, _, _, _, _, climbs⟩ | ⟨_, _, _, _, _, settles⟩
  · exact climbs.toSettles
  · exact settles

theorem depth_read : (session.read parser).2.nesting.depth = session.nesting.depth :=
  (session.settles_read parser).depth

theorem reaches_read : session.cursor.Reaches (session.read parser).2.cursor := by
  rcases session.read_eq parser with ⟨_, _, _, ran, _, same, _⟩ | ⟨_, _, ran, _, same, _⟩
  · exact same ▸ Parser.reaches_of_done ran
  · exact same ▸ Parser.reaches_of_failed ran

variable {parser} {session}

theorem settles_of_read {after : Session} {result : Except SyntaxError α}
    (ran : session.read parser = (result, after)) : session.nesting.Settles after.nesting := by
  have settles := session.settles_read parser
  rwa [ran] at settles

theorem reaches_of_read {after : Session} {result : Except SyntaxError α}
    (ran : session.read parser = (result, after)) : session.cursor.Reaches after.cursor := by
  have reached := session.reaches_read parser
  rwa [ran] at reached

/-- A reading with a parser that passes a token leaves fewer. -/
theorem read_lt (advances : parser.Advances) {value : α} {after : Session}
    (ran : session.read parser = (.ok value, after)) :
    after.cursor.remaining.length < session.cursor.remaining.length := by
  rcases session.read_eq parser with ⟨_, _, _, done, _, same, _⟩ | ⟨_, _, _, result, _⟩
  · rw [ran] at same
    exact same ▸ advances _ _ _ _ _ done
  · rw [ran] at result
    cases result

end Session

end ContractSyntax
