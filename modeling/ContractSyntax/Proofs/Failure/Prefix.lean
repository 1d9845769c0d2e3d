/-
**The tokens before an error begin a sentence.**

A parser that fails has gone along the rules of the grammar up to the token that its error is about,
so what it has passed can be completed. Nothing is asked of the nesting here: a parser that stops since
a level more would be too deep has still begun a sentence of the grammar, which knows no such limit.

* `passes_beginning`: for programs, expressions, types, patterns and contracts, over every row of tokens.
-/

import ContractSyntax.Proofs.Failure.Item
import ContractSyntax.Proofs.Reading

namespace ContractSyntax

namespace Parser

variable {α : Type}

/-- Whenever the parser fails, a sentence of the category begins with the tokens before the one that
the error is about. So the error comes before the first place up to which no sentence begins that
way, and the parser has not passed any token behind that place. -/
def PassesBeginning (parser : Parser α) (category : Category) : Prop :=
  ∀ size tokens error after, parser.start (.start size tokens) = (.error error, after) →
    ∃ index, error.IsAt size tokens index ∧
      BeginsSentence category (nodes (tokens.take index)) ∧
      ∀ length, ¬ BeginsSentence category (nodes (tokens.take length)) →
        index < length ∧ after.index ≤ length

theorem Fails.whole {parser : Parser α} {category : Category} {cursor : Cursor}
    (follows : parser.Follows cursor [.of category]) :
    parser.whole.Fails cursor (Starts [.of category]) := by
  refine .bind follows.fails follows.spells fun passed value height middle _ spelled => ?_
  have ended : endOfInput.Fails middle fun tokens =>
      Starts [.of category] (nodes passed ++ tokens) := by
    refine .current ?_
    split
    · exact .pure
    · exact .fail (spelled.starts (.stop []))
  exact .last ended fun _ _ _ => .pure

theorem PassesBeginning.of_fails {parser : Parser α} {category : Category}
    (productive : category.IsProductive)
    (fails : ∀ cursor, parser.Fails cursor (Starts [.of category])) :
    parser.PassesBeginning category := by
  intro size tokens error after started
  -- Whatever has been passed as a beginning is shorter than what is none.
  have behind {before : Tokens} {place : Cursor}
      (passes : Cursor.Passes before (.start size tokens) place)
      (begins : BeginsSentence category (nodes before)) :
      tokens.take before.length = before ∧
        ∀ length, ¬ BeginsSentence category (nodes (tokens.take length)) →
          before.length < length := by
    have whole : tokens = before ++ place.remaining := passes.remaining
    refine ⟨by rw [whole, List.take_left], fun length none => Nat.lt_of_not_le fun within => none ?_⟩
    rw [whole, List.take_append_of_le_length within]
    rw [← List.take_append_drop length before, nodes, List.map_append] at begins
    exact begins.left
  cases fails _ _ _ _ (run_of_start_error started) with
  | @here cause before place passes begun =>
    have begins := BeginsSentence.of_starts begun productive
    obtain ⟨same, shorter⟩ := behind passes begins
    refine ⟨before.length, passes.isAt cause, by rwa [same], fun length none => ?_⟩
    have index : after.index = 0 + before.length := passes.index
    have := shorter length none
    omega
  | @behind digits before place passes current begun =>
    have begins := (BeginsSentence.of_starts begun productive).left
    obtain ⟨same, shorter⟩ := behind passes begins
    refine ⟨before.length, passes.isAt _, by rwa [same], fun length none => ?_⟩
    have index : place.index = 0 + before.length := passes.index
    have next := (Cursor.passes_advance current).index
    have := shorter length none
    rw [List.length_singleton] at next
    omega

end Parser

end ContractSyntax
