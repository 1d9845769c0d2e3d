/-
**Programs one after the other.**

A definition ends with a token of its own, so nothing behind it is asked for, and the levels it opens
are closed again behind it. With a newline between two texts no token or comment of one reaches into
the other; so the two texts together are read as the definitions of the first, then those of the
second, further back by the length of the first and the newline.

* `Several.append`, `Program.Derives.relocate`: derivations put in a row and moved;
* `readProgram_join`: two programs with a newline between them.
-/

import ContractSyntax.Proofs.Lexing.Joining
import ContractSyntax.Proofs.Reading

namespace ContractSyntax

/-- Phrases one after the other, and others behind them. -/
theorem Several.append {α : Type} {meaning : Tokens → α → Nat → Prop} {tokens others : Tokens}
    {values more : List α} {height depth : Nat} (first : Several meaning tokens values height)
    (second : Several meaning others more depth) :
    Several meaning (tokens ++ others) (values ++ more) (max height depth) := by
  induction first with
  | none => simpa using second
  | more first _ continued =>
    rw [List.append_assoc, Nat.max_assoc]
    exact .more first continued

namespace Program.Derives

variable {tokens : Tokens} {program : Program} {height : Nat}

/-- The run over the tokens of a derivation within the limit of nesting. -/
theorem run (derived : program.Derives tokens height) (fits : height ≤ nestingLimit)
    {cursor : Cursor} (same : cursor.remaining = tokens) :
    ∃ after, Cursor.Passes tokens cursor after ∧
      Parser.program.run nestingLimit cursor = .done program height after := by
  rcases derived.takes (Nat.le_refl _) cursor (same.trans (List.append_nil _).symm) with
    ⟨_, ran⟩ | ⟨large, _⟩
  · exact ran
  · exact absurd fits (Nat.not_le.mpr large)

/-- Moved tokens make up the moved program. -/
theorem relocate (derived : program.Derives tokens height) (fits : height ≤ nestingLimit)
    (move : Relocation) :
    Program.Derives (ContractSyntax.relocate move tokens) (ContractSyntax.relocate move program)
      height := by
  have here : (Cursor.start 0 tokens).remaining = tokens := rfl
  obtain ⟨after, _, ran⟩ := derived.run fits here
  have moved := @Parser.Moves.program move nestingLimit (.start 0 tokens)
  rw [ran] at moved
  obtain ⟨passed, passes, derived, ended⟩ := Parser.Yields.program _ _ _ _ moved
  have whole := passes.remaining
  rw [ended, List.append_nil] at whole
  subst whole
  exact derived

/-- A derivation over the tokens of a text is what is read. -/
theorem readProgram_eq (derived : program.Derives tokens height) (fits : height ≤ nestingLimit)
    (file : String) {source : String} (lexed : tokenize source = .ok tokens) :
    (readProgram file source).value = .ok program := by
  obtain ⟨cursor, same, value⟩ := readProgram_value file lexed
  obtain ⟨after, _, ran⟩ := derived.run fits same
  rw [value, Parser.start_of_done ran]
  rfl

end Program.Derives

/-- **Programs one after the other.** Two texts that are programs make up one with a newline between
them: its definitions are those of the first and then those of the second, each of whose spans is
further back by the first text and the newline. -/
theorem readProgram_join (file file' file'' first second : String) (program other : Program)
    (read : (readProgram file first).value = .ok program)
    (read' : (readProgram file' second).value = .ok other) :
    (readProgram file'' (first ++ "\n" ++ second)).value =
      .ok ⟨program.items ++ relocate (.forward (first.utf8ByteSize + 1)) other.items⟩ := by
  obtain ⟨tokens, height, lexed, derived⟩ := Program.Derives.of_read read
  obtain ⟨others, depth, lexed', derived'⟩ := Program.Derives.of_read read'
  have fits := derived.height_le lexed read
  have fits' := derived'.height_le lexed' read'
  have moved := derived'.relocate fits' (.forward (first.utf8ByteSize + 1))
  have joined : Program.Derives (tokens ++ relocate (.forward (first.utf8ByteSize + 1)) others)
      ⟨program.items ++ relocate (.forward (first.utf8ByteSize + 1)) other.items⟩
      (max height depth) := Several.append derived moved
  exact joined.readProgram_eq (Nat.max_le.mpr ⟨fits, fits'⟩) file'' (tokenize_join lexed lexed')

theorem readProgram_join_of_uses :
    ∃ program other, (readProgram "a" "use a; // a").value = .ok program ∧
      (readProgram "b" "use b;").value = .ok other ∧
      (readProgram "c" "use a; // a\nuse b;").value =
        .ok ⟨program.items ++ relocate (.forward 12) other.items⟩ := by
  have isRead : (readProgram "a" "use a; // a").value.isOk := by decide +kernel
  have isRead' : (readProgram "b" "use b;").value.isOk := by decide +kernel
  obtain ⟨program, read⟩ := ok_of_isOk isRead
  obtain ⟨other, read'⟩ := ok_of_isOk isRead'
  exact ⟨program, other, read, read',
    readProgram_join "a" "b" "c" "use a; // a" "use b;" program other read read'⟩

end ContractSyntax
