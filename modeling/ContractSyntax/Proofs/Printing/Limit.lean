/-
**When a printed program is read back.**

The rest of a block after a binding is a block in the tree. Reading it opens no level, but it is
printed in braces, and reading those opens one. So a program may be read within the limit of nesting
and printed as a text that is beyond it. How many levels the printed text opens depends on the tree
alone, where every block counts.

* `readProgram_text_ok_iff`: which printed programs are read back;
* `not_reread`: a program that is read and whose printed text is not.
-/

import ContractSyntax.Proofs.Printing.RoundTrip

namespace ContractSyntax

open Piece

/-- The printed text of a program that was read is read back exactly if the levels of the program,
with one for every block, are within the limit. Otherwise the nesting is too deep. -/
theorem readProgram_text_ok_iff {file again source : String} {program : Program}
    (read : (readProgram file source).value = .ok program) :
    ((∃ found, (readProgram again program.text).value = .ok found) ↔
      program.gauged .levels ≤ nestingLimit) ∧
    (nestingLimit < program.gauged .levels →
      ∃ error, (readProgram again program.text).value = .error (.syntactic error) ∧
        error.message = "nesting deeper than 256 levels") := by
  obtain ⟨tokens, height, _, derived⟩ := Program.Derives.of_read read
  obtain ⟨places, lexed, printed⟩ := tokenize_text read
  have derived := derived.reprinted
  rw [← printed] at derived
  rcases derived.read again lexed with ⟨fits, found, reread, _⟩ | ⟨large, error, failed, message⟩
  · exact ⟨⟨fun _ => fits, fun _ => ⟨found, reread⟩⟩, fun large => absurd fits (Nat.not_le.mpr large)⟩
  · refine ⟨⟨fun ⟨found, reread⟩ => ?_, fun fits => absurd fits (Nat.not_le.mpr large)⟩,
      fun _ => ⟨error, failed, message⟩⟩
    cases reread.symm.trans failed

theorem readProgram_text_ok_iff_of_block :
    ∃ program,
      (readProgram "a" "fn f() -> i64 = \x7b let a = 1; a; a \x7d;").value = .ok program ∧
      ((∃ found, (readProgram "b" program.text).value = .ok found) ↔
        program.gauged .levels ≤ nestingLimit) ∧
      (nestingLimit < program.gauged .levels →
        ∃ error, (readProgram "b" program.text).value = .error (.syntactic error) ∧
          error.message = "nesting deeper than 256 levels") := by
  have isRead : (readProgram "a" "fn f() -> i64 = \x7b let a = 1; a; a \x7d;").value.isOk := by
    decide +kernel
  obtain ⟨program, read⟩ := ok_of_isOk isRead
  exact ⟨program, read, readProgram_text_ok_iff read⟩

/-! ### A program that is not read back -/

/-- Bindings in a block, each with a statement behind it: `let a = 1; a; let a = 1; a; 1`. -/
def bindingPieces : Nat → List Piece
  | 0 => [token (.int "1")]
  | count + 1 =>
    [word .let_, space] ++ ([ident "a"] ++ ([space, sign .equal, space] ++ ([token (.int "1")] ++
      ([sign .semicolon, space] ++ ([ident "a"] ++ ([sign .semicolon, space] ++
        bindingPieces count))))))

/-- A function with bindings in a block. -/
def functionPieces (count : Nat) : List Piece :=
  [word .fn, space] ++ ([ident "f"] ++ ([sign .leftParen, sign .rightParen] ++
    ([space, sign .arrow, space] ++ ([word .i64] ++ ([space, sign .equal, space] ++
      ([sign .leftBrace, space] ++ (bindingPieces count ++
        ([space] ++ [sign .rightBrace, sign .semicolon]))))))))

theorem legible_bindings (count : Nat) : Segment .operand .separator (bindingPieces count) := by
  have one : Segment .operand .separator [token (.int "1")] := Segment.int 1
  have name : Segment .operand .separator [ident "a"] :=
    .ident (Token.wellFormed_of_take? (show Token.take? ['a'] = some (.ident "a", []) by decide))
  induction count with
  | zero => exact one
  | succ count continued =>
    exact (Segment.leading .let_).append (name.append ((Segment.amidSymbol .equal).append
      (one.append ((Segment.trailing .semicolon nofun).append
        (name.append ((Segment.trailing .semicolon nofun).append continued))))))

theorem legible_function (count : Nat) : Legible (functionPieces count) := by
  have name : Segment .operand .separator [ident "f"] :=
    .ident (Token.wellFormed_of_take? (show Token.take? ['f'] = some (.ident "f", []) by decide))
  have none : Segment .separator .separator [sign .leftParen, sign .rightParen] :=
    .cons (.free .leftParen rfl : Segment _ .operand _) (.free .rightParen rfl)
  have ended : Segment .separator .separator ([space] ++ [sign .rightBrace, sign .semicolon]) :=
    Segment.space.append
      (.cons (.free .rightBrace rfl : Segment .operand .operand _) (.free .semicolon rfl))
  have whole := (Segment.leading .fn).append (name.append (none.append
    ((Segment.amidSymbol .arrow).append ((Segment.word .i64).append
      ((Segment.amidSymbol .equal).append ((Segment.trailing .leftBrace nofun).append
        ((legible_bindings count).append ended)))))))
  exact whole.legible

theorem derives_one : Derives .subexpr (bare [.int "1"]) ⟨.int 1, nowhere⟩ 1 :=
  .nested (.operators (.single 1 (.unsigned (.operand
    (.int (readInt64?_toString (show 1 < int64Bound by decide)) nowhere)))))

/-- Each binding opens a level as it is read, and the rest behind it takes another in the tree. -/
theorem derives_bindings (count : Nat) :
    ∃ tree : Spanned Expr,
      Derives (.items 0) (bare (tokens (bindingPieces count))) ([], some tree) (count + 1) ∧
      exprGauged .levels tree = 2 * count + 1 := by
  induction count with
  | zero => exact ⟨_, .value 0 (by simp [bindingPieces]) derives_one, rfl⟩
  | succ count continued =>
    obtain ⟨tree, derived, measured⟩ := continued
    have name : Derives .subexpr (bare [.ident "a"]) ⟨.var "a", nowhere⟩ 1 :=
      .nested (.operators (.single 1 (.unsigned (.operand (.var ⟨"a", nowhere⟩)))))
    have rest := Derives.remainder 0 (.statement nowhere (by simp) name derived)
      (.inl (List.cons_ne_nil _ _))
    have unmarked : Marks .mut_ false [] := rfl
    have bound := Derives.bound (.bindingRest nowhere nowhere nowhere false ⟨"a", nowhere⟩ unmarked
      .unstated derives_one rest)
    refine ⟨_, rederived bound ?_ rfl ?_, ?_⟩
    · simp [bindingPieces]
    · omega
    · simp only [exprGauged, Expr.gauged, gaugedExprs] at measured ⊢
      omega

theorem derives_function (count : Nat) :
    ∃ program : Program,
      program.Derives (bare (tokens (functionPieces count))) (count + 2) ∧
      program.gauged .levels = 2 * count + 2 := by
  obtain ⟨tree, derived, measured⟩ := derives_bindings count
  have hidden : Marks .pub false [] := rfl
  have headed : Parser.Header.Derives nowhere [] ⟨nowhere, [], .hidden⟩ 0 := .mk .none hidden
  have derived := Item.Derives.function nowhere nowhere nowhere nowhere nowhere nowhere ⟨"f", nowhere⟩
    headed ⟨[], .none, rfl, rfl, List.forall_mem_nil _⟩ .absent
    (.nestedType (.primitive .i64 nowhere)) (.clauses .absent .absent)
    (.nested (.block nowhere nowhere derived))
  refine ⟨⟨[_]⟩, rederived (Several.more derived .none) ?_ rfl ?_, ?_⟩
  · simp [functionPieces, Primitive.word]
  · simp only [highest_nil, List.map_nil]
    omega
  · simp only [Program.gauged, Item.gauged, gaugedAll, exprGauged, typeGauged, Expr.gauged, Ty.gauged,
      gaugedExprs, Contract.ofClauses, List.map_nil, List.map_cons, highest_nil, highest_cons,
      Option.toList_none] at measured ⊢
    omega

/-- Beyond half of the limit, bindings with statements between them are read, and cannot be read
back. -/
theorem not_reread :
    ∃ program, (readProgram "a" (render (functionPieces 128))).value = .ok program ∧
      ¬ ∃ found, (readProgram "b" program.text).value = .ok found := by
  obtain ⟨program, derived, measured⟩ := derives_function 128
  obtain ⟨places, lexed, same⟩ := tokenize_render (legible_function 128)
  rw [← same] at derived
  rcases derived.read "a" lexed with ⟨_, found, read, erased⟩ | ⟨large, _⟩
  · refine ⟨found, read, fun ⟨again, reread⟩ => ?_⟩
    have printed := derived.reprinted
    obtain ⟨places, lexed, same⟩ := tokenize_text read
    have pieces : program.pieces = found.pieces :=
      erased ▸ found.pieces_relocate .erasure
    rw [pieces, ← same, measured] at printed
    rcases printed.read "b" lexed with ⟨fits, _⟩ | ⟨_, error, failed, _⟩
    · exact absurd fits (by decide)
    · cases reread.symm.trans failed
  · exact absurd large (by decide)

end ContractSyntax
