/-
**Where chains and lists fail.**

A repetition fails in one of its parts, or between two of them. Either way the parts before have been
passed, so the beginning of one part has to be carried over all parts before it.

* `Fails.chain`: what holds of the operand and is kept by each link is passed before a link fails;
* `Fails.sequence`, `Follows.list`: entries, with a separator after each of those before;
* `Fails.opened`, `Fails.untilEnd`: one phrase after the other.
-/

import ContractSyntax.Proofs.Derivation.Repetition
import ContractSyntax.Proofs.Failure.Stopping

namespace ContractSyntax

namespace Parser.Fails

variable {α β : Type} {cursor : Cursor} {begun : List Token → Prop}

/-! ### Chains -/

section Chains

variable {link? : Token → Option (α → Parser α)} {meaning : Tokens → α → Nat → Cursor → Prop}

theorem chainFrom
    (linked : ∀ passed value height middle link, meaning passed value height middle →
      middle.current?.bind link? = some link →
      (link value).Yields middle fun tokens result more after =>
        meaning (passed ++ tokens) result (height + 1 + more) after)
    (full : ∀ passed value height middle, meaning passed value height middle →
      begun (nodes passed))
    (fails : ∀ passed value height middle link, meaning passed value height middle →
      middle.current?.bind link? = some link →
      (link value).Fails middle fun tokens => begun (nodes passed ++ tokens))
    {room height : Nat} {value : α} {middle after : Cursor} {passed : Tokens} {error : SyntaxError}
    (passes : Cursor.Passes passed cursor middle) (holds : meaning passed value height middle)
    (ran : Parser.chainFrom link? room value height middle = .failed error after) :
    Stopped cursor begun error after := by
  fun_induction Parser.chainFrom link? room value height middle generalizing passed with
  | case1 => cases ran
  | case2 value height middle link found fits next more stop ranLink continued =>
    obtain ⟨tokens, further, holds⟩ := linked _ _ _ _ _ holds found _ _ _ _ ranLink
    exact continued (passes.trans further) holds ran
  | case3 value height middle link found fits problem stop ranLink =>
    cases ran
    exact .later passes (fails _ _ _ _ _ holds found _ _ _ ranLink)
  | case4 value height middle link found none =>
    cases ran
    exact .here .tooDeep passes (full _ _ _ _ holds)

/-- A chain fails in its operand, in a link, or before a link for which there is no room. -/
theorem chain {first : Parser α} (operand : first.Fails cursor begun)
    (yields : first.Yields cursor meaning)
    (linked : ∀ passed value height middle link, meaning passed value height middle →
      middle.current?.bind link? = some link →
      (link value).Yields middle fun tokens result more after =>
        meaning (passed ++ tokens) result (height + 1 + more) after)
    (full : ∀ passed value height middle, meaning passed value height middle →
      begun (nodes passed))
    (fails : ∀ passed value height middle link, meaning passed value height middle →
      middle.current?.bind link? = some link →
      (link value).Fails middle fun tokens => begun (nodes passed ++ tokens)) :
    (Parser.chain first link?).Fails cursor begun := by
  intro room error after ran
  simp only [Parser.chain] at ran
  cases ranFirst : first.run room cursor with
  | failed problem stop =>
    simp only [ranFirst, Outcome.failed.injEq] at ran
    obtain ⟨rfl, rfl⟩ := ran
    exact operand _ _ _ ranFirst
  | done value height middle =>
    rw [ranFirst] at ran
    obtain ⟨passed, passes, holds⟩ := yields _ _ _ _ ranFirst
    exact chainFrom linked full fails passes holds ran

end Chains

/-! ### Sequences -/

section Sequences

variable {separator : Token} {entry : Parser (Entry α β)}
  {item : Tokens → α → Nat → Cursor → Prop} {last : Tokens → β → Nat → Cursor → Prop}

/-- A sequence fails in an entry, or behind an item that no separator follows. -/
theorem sequence (yields : ∀ cursor, entry.Yields cursor (Entry.Meaning item last))
    (fails : ∀ cursor, entry.Fails cursor begun)
    (alone : ∀ tokens value height after, item tokens value height after → begun (nodes tokens))
    (separated : ∀ tokens value height after others, item tokens value height after →
      begun others → begun (nodes tokens ++ separator :: others)) :
    (Parser.sequence separator entry).Fails cursor begun := by
  intro room error last ran
  simp only [Parser.sequence] at ran
  generalize ([] : List α) = items, 0 = height at ran
  fun_induction Parser.sequenceFrom separator entry room items height cursor with
  | case1 items height cursor problem stop ranEntry =>
    cases ran
    exact fails _ _ _ _ ranEntry
  | case2 => cases ran
  | case3 items height cursor value more stop ranEntry follows continued =>
    obtain ⟨tokens, passes, holds⟩ := yields _ _ _ _ _ ranEntry
    refine .later (passes.trans (Cursor.passes_advance follows)) ((continued ran).mono ?_)
    intro others begins
    simpa [nodes] using separated _ _ _ _ _ holds begins
  | case4 items height cursor value more stop ranEntry other =>
    cases ran
    obtain ⟨tokens, passes, holds⟩ := yields _ _ _ _ _ ranEntry
    exact .here _ passes (alone _ _ _ _ holds)

end Sequences

/-! ### Phrases one after the other -/

variable (part : List Token → Prop)

/-- Phrases that start with the same token fail in one of them. -/
theorem opened {opener : Token} {parser : Span → Parser α}
    (yields : ∀ span cursor, (parser span).Yields cursor fun tokens _ _ _ =>
      part (opener :: nodes tokens))
    (fails : ∀ span cursor, (parser span).Fails cursor fun tokens => begun (opener :: tokens))
    (continued : ∀ first others, part first → begun others → begun (first ++ others)) :
    (Parser.opened opener parser).Fails cursor begun := by
  intro room error last ran
  simp only [Parser.opened] at ran
  generalize ([] : List α) = items, 0 = height at ran
  fun_induction Parser.openedFrom opener parser room items height cursor with
  | case1 items height cursor here problem stop ranItem =>
    cases ran
    exact .later (Cursor.passes_advance here) (fails _ _ _ _ _ ranItem)
  | case2 items height cursor here value more stop ranItem others =>
    obtain ⟨tokens, passes, holds⟩ := yields _ _ _ _ _ _ ranItem
    exact .later ((Cursor.passes_advance here).trans passes)
      ((others ran).mono fun _ begins => continued _ _ holds begins)
  | case3 => cases ran

/-- Phrases up to the end of the input fail in one of them. -/
theorem untilEnd {parser : Parser α} {advances : parser.Advances}
    (yields : ∀ cursor, parser.Yields cursor fun tokens _ _ _ => part (nodes tokens))
    (fails : ∀ cursor, parser.Fails cursor begun)
    (continued : ∀ first others, part first → begun others → begun (first ++ others)) :
    (Parser.untilEnd parser advances).Fails cursor begun := by
  intro room error last ran
  simp only [Parser.untilEnd] at ran
  generalize ([] : List α) = items, 0 = height at ran
  fun_induction Parser.untilEndFrom parser advances room items height cursor with
  | case1 => cases ran
  | case2 items height cursor first rest more problem stop ranItem =>
    cases ran
    exact fails _ _ _ _ ranItem
  | case3 items height cursor first rest more value depth stop ranItem others =>
    obtain ⟨tokens, passes, holds⟩ := yields _ _ _ _ _ ranItem
    exact .later passes ((others ran).mono fun _ begins => continued _ _ holds begins)

end Parser.Fails

/-! ### Comma lists -/

namespace Starts

variable {member : Category} {elements : List Element} {first second : List Token}

/-- A list goes on after a comma. -/
theorem moreOfList (sentence : Sentence member first)
    (others : Starts (.of (.list member) :: elements) second) :
    Starts (.of (.list member) :: elements) (first ++ .symbol .comma :: second) := by
  cases others with
  | stop => exact .within (.moreOfList member) (sentence.begins (.token _ (.stop _)))
  | @of _ body _ row after rule inner continued =>
    have row : Spells _ _ := sentence.before (.token (.symbol .comma) (Sentence.last ⟨body, rule, inner⟩))
    simpa using Starts.of (.moreOfList member) row continued
  | within rule inner =>
    exact .within (.moreOfList member) (sentence.begins (.token _ (.within rule inner)))

end Starts

namespace Parser

variable {α : Type} {parser : Parser α} {cursor : Cursor} {member : Category}

theorem Follows.sentence (follows : parser.Follows cursor [.of member]) :
    parser.Yields cursor fun tokens _ _ _ => Sentence member (nodes tokens) :=
  follows.spells.mono fun _ _ _ _ spelled => spelled.sentence

/-- An entry of a list fails in its item, or behind an item that is neither the last nor followed by
a comma. -/
theorem Fails.listEntry (close : Symbol) (follows : ∀ cursor, parser.Follows cursor [.of member]) :
    (Parser.listEntry close parser).Fails cursor (Starts [.of (.list member), .sign close]) := by
  refine accept (fun _ _ => .pure) fun _ => ?_
  refine bind (.enter (.endOfList member) (follows cursor).fails) (follows cursor).sentence ?_
  intro passed value height middle _ sentence
  refine current ?_
  have only : Starts [.of (.list member), .sign close] (nodes passed ++ []) := by
    simpa using (Sentence.started ⟨_, .endOfList member, sentence.last⟩ :
      Starts (.of (.list member) :: [.sign close]) _)
  split
  · exact .pure
  · exact .accept (fun _ _ => .pure) fun _ => .fail only

/-- A comma list follows the row of its members and the closing symbol. -/
theorem Follows.list (close : Symbol) (follows : ∀ cursor, parser.Follows cursor [.of member]) :
    (Parser.list close parser).Follows cursor [.of (.list member), .sign close] where
  spells := by
    refine (Yields.list fun cursor => (follows cursor).sentence).mono ?_
    intro tokens found height after ⟨passed, same, row⟩
    have sentence := row.sentence fun _ _ _ sentence => sentence
    rw [same, nodes, List.map_append]
    exact sentence.before (.token _ .nothing)
  fails := by
    refine .last (.sequence (fun _ => .listEntry fun cursor => (follows cursor).sentence)
      (fun _ => .listEntry close follows) ?_ ?_) fun _ _ _ => .pure
    · intro tokens value height after sentence
      exact Sentence.started ⟨_, .endOfList member, sentence.last⟩
    · intro tokens value height after others sentence begun
      exact .moreOfList sentence begun

end Parser

end ContractSyntax
