/-
**The parsers accept the sentences of the grammar, and nothing else.**

The grammar knows no limit on nesting, so a sentence that nests too deeply is refused, in the words
for that alone.

* `recognizes_grammar`: for programs, expressions, types, patterns and contracts, over every row of
  tokens, wherever they stand.
-/

import ContractSyntax.Proofs.Language.Complete
import ContractSyntax.Proofs.Language.Sound

namespace ContractSyntax

namespace Parser

variable {α : Type}

/-- Whatever the parser accepts is a sentence of the category, and each sentence is accepted or
refused for the depth of its nesting. -/
def Recognizes (parser : Parser α) (category : Category) : Prop :=
  ∀ size tokens,
    ((∃ value, (parser.start (.start size tokens)).1 = .ok value) →
      Sentence category (nodes tokens)) ∧
    (Sentence category (nodes tokens) →
      (∃ value, (parser.start (.start size tokens)).1 = .ok value) ∨
        parser.IsTooDeepAt (.start size tokens))

/-- A parser recognizes what it passes to the end and what it takes of every sentence. -/
theorem Recognizes.of [Relocate α] {parser : Parser α} {category : Category}
    {meaning : Tokens → α → Nat → Prop}
    (yields : ∀ cursor, parser.Yields cursor fun tokens value height after =>
      meaning tokens value height ∧ after.remaining = [])
    (sound : ∀ tokens value height, meaning tokens value height → Sentence category (nodes tokens))
    (complete : ∀ tokens, category.Means tokens → ∃ value height, meaning (bare tokens) value height)
    (takes : ∀ tokens value height, meaning tokens value height →
      parser.Takes tokens [] value height nestingLimit)
    (moves : Moves .erasure parser parser) : parser.Recognizes category := by
  refine fun size tokens => ⟨fun ⟨value, started⟩ => ?_, fun sentence => ?_⟩
  · obtain ⟨height, after, ran⟩ := run_of_start started
    obtain ⟨passed, passes, holds, ended⟩ := yields _ _ _ _ _ ran
    have whole : tokens = passed := by simpa [ended, Cursor.start] using passes.remaining
    exact whole ▸ sound _ _ _ holds
  · obtain ⟨value, height, holds⟩ := complete _ sentence.means
    have same : (Cursor.start size tokens).remaining.map Spanned.node = nodes tokens := rfl
    rcases (takes _ _ _ holds).placed moves same with ⟨_, found, started, _⟩ | ⟨_, deep⟩
    · exact .inl ⟨found, started⟩
    · exact .inr deep

/-- A parser that is followed by the end of the input. -/
theorem Recognizes.whole [Relocate α] {parser : Parser α} {category : Category}
    {meaning : Tokens → α → Nat → Prop}
    (yields : ∀ cursor, parser.Yields cursor fun tokens value height _ =>
      meaning tokens value height)
    (sound : ∀ tokens value height, meaning tokens value height → Sentence category (nodes tokens))
    (complete : ∀ tokens, category.Means tokens → ∃ value height, meaning (bare tokens) value height)
    (takes : ∀ tokens value height, meaning tokens value height →
      parser.Takes tokens [] value height nestingLimit)
    (moves : Moves .erasure parser parser) : parser.whole.Recognizes category :=
  .of (fun cursor => (yields cursor).whole) sound complete
    (fun _ _ _ holds => (takes _ _ _ holds).whole) moves.whole

end Parser

end ContractSyntax
