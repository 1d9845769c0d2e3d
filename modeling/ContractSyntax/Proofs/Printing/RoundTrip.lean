/-
**Programs are read back from their printed text.**

The printed text of a program that was read is legible, and its tokens make up the program again but
for its spans. So it is read as that program, unless the blocks that are printed in braces are
nested too deep; no other error and no other program is possible. Since a parser and a printer could
forget the same thing, the tokens of the two texts are compared as well.

* `readProgram_text`: what comes of reading a printed program;
* `contents_text`: the printed text has the tokens of the source, as far as they count.
-/

import ContractSyntax.Proofs.Printing.Legible
import ContractSyntax.Proofs.Printing.Preservation

namespace ContractSyntax

section

variable {file again source : String} {program : Program}

/-- The tokens of a printed program are the tokens of its text. -/
theorem tokenize_text (read : (readProgram file source).value = .ok program) :
    ∃ places, tokenize program.text = .ok places ∧
      places.map Spanned.node = Piece.tokens program.pieces := by
  obtain ⟨tokens, height, lexed, derived⟩ := Program.Derives.of_read read
  exact tokenize_render (derived.legible (wellFormed_of_tokenize lexed))

/-- A program that was read is printed as a text that is read as the same program, but for its
spans, and so is printed alike; or reading it again goes beyond the limit of nesting. -/
theorem readProgram_text (read : (readProgram file source).value = .ok program) :
    (∃ found, (readProgram again program.text).value = .ok found ∧
      found.erased = program.erased ∧ found.text = program.text) ∨
    ∃ error, (readProgram again program.text).value = .error (.syntactic error) ∧
      error.message = "nesting deeper than 256 levels" := by
  obtain ⟨tokens, height, _, derived⟩ := Program.Derives.of_read read
  obtain ⟨places, lexed, printed⟩ := tokenize_text read
  have derived := derived.reprinted
  rw [← printed] at derived
  rcases derived.read again lexed with ⟨_, found, reread, same⟩ | ⟨_, deep⟩
  · refine .inl ⟨found, reread, same, ?_⟩
    calc
      found.text = found.erased.text := (found.text_relocate .erasure).symm
      _ = program.erased.text := congrArg Program.text same
      _ = program.text := program.text_relocate .erasure
  · exact .inr deep

end

theorem readProgram_text_of_block :
    ∃ program,
      (readProgram "a" "fn f() -> i64 = \x7b let a = -1; a; let b = 2.50; \x7d;").value =
        .ok program ∧
      ((∃ found, (readProgram "b" program.text).value = .ok found ∧
        found.erased = program.erased ∧ found.text = program.text) ∨
      ∃ error, (readProgram "b" program.text).value = .error (.syntactic error) ∧
        error.message = "nesting deeper than 256 levels") := by
  have isRead :
      (readProgram "a" "fn f() -> i64 = \x7b let a = -1; a; let b = 2.50; \x7d;").value.isOk := by
    decide +kernel
  obtain ⟨program, read⟩ := ok_of_isOk isRead
  exact ⟨program, read, readProgram_text read⟩

/-- The printed text of a program that was read has the tokens of the source, one for one and in
order, but for commas before closing symbols, braces, and the digits of numbers. -/
theorem contents_text {file source : String} {program : Program}
    (read : (readProgram file source).value = .ok program) :
    ∃ tokens printed, tokenize source = .ok tokens ∧ tokenize program.text = .ok printed ∧
      contents (printed.map Spanned.node) = contents (tokens.map Spanned.node) := by
  obtain ⟨tokens, height, lexed, derived⟩ := Program.Derives.of_read read
  obtain ⟨printed, relexed, same⟩ := tokenize_text read
  refine ⟨tokens, printed, lexed, relexed, ?_⟩
  rw [same]
  exact derived.kept.contents_eq.symm

theorem contents_text_of_struct :
    ∃ program,
      (readProgram "a" "struct P { x: i64{y < 007,},} fn f() -> f64 = [1.50,];").value =
        .ok program ∧
      ∃ tokens printed,
        tokenize "struct P { x: i64{y < 007,},} fn f() -> f64 = [1.50,];" = .ok tokens ∧
        tokenize program.text = .ok printed ∧
        contents (printed.map Spanned.node) = contents (tokens.map Spanned.node) := by
  have isRead :
      (readProgram "a" "struct P { x: i64{y < 007,},} fn f() -> f64 = [1.50,];").value.isOk
      := by decide +kernel
  obtain ⟨program, read⟩ := ok_of_isOk isRead
  exact ⟨program, read, contents_text read⟩

end ContractSyntax
