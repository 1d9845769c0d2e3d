/-
**Printed pieces are tokenized again.**

A list of pieces is legible if each of its tokens ends where the text of the pieces after it begins.
The text of a legible list is read as the tokens among the pieces, since these are what is written in
it: one piece is one step, a blank or a token.

* `Piece.Legible.scans`: the tokens of a legible list are what is written in its text;
* `tokenize_render`: they come out again, in order.
-/

import ContractSyntax.Proofs.Lexing.Scans
import ContractSyntax.Tree.Piece

namespace ContractSyntax

namespace Piece

/-- The characters of some pieces. -/
def characters (pieces : List Piece) : List Char := pieces.flatMap fun piece => piece.text.toList

theorem characters_cons (piece : Piece) (pieces : List Piece) :
    characters (piece :: pieces) = piece.text.toList ++ characters pieces := rfl

theorem toList_render (pieces : List Piece) : (render pieces).toList = characters pieces := by
  induction pieces with
  | nil => rfl
  | cons piece pieces continued =>
    rw [show piece :: pieces = [piece] ++ pieces from rfl, render_append, String.toList_append,
      continued]
    simp [render, characters]

/-- Whether each token among some pieces has the shape of its kind and ends where what is behind it
begins. -/
def Legible : List Piece → Prop
  | [] => True
  | token content :: rest => content.WellFormed ∧ content.Stops (characters rest) ∧ Legible rest
  | space :: rest | newline :: rest => Legible rest

/-- The tokens among some pieces, where their text starts at `offset`. -/
def placed (offset : Nat) : List Piece → List (Spanned Token)
  | [] => []
  | token content :: rest =>
    ⟨content, offset, offset + content.text.utf8ByteSize⟩ ::
      placed (offset + content.text.utf8ByteSize) rest
  | space :: rest | newline :: rest => placed (offset + 1) rest

theorem map_node_placed (offset : Nat) (pieces : List Piece) :
    (placed offset pieces).map Spanned.node = tokens pieces := by
  induction pieces generalizing offset with
  | nil => rfl
  | cons piece rest continued =>
    cases piece with
    | token content => exact congrArg (content :: ·) (continued _)
    | space | newline => exact continued _

end Piece

open Piece

/-! ### Whole texts -/

/-- What is written in the text of a legible list are the tokens of the list. -/
theorem Piece.Legible.scans {pieces : List Piece} (legible : Legible pieces) (offset : Nat) :
    Scans [] offset (characters pieces) (placed offset pieces) := by
  induction pieces generalizing offset with
  | nil => exact .nil offset
  | cons piece rest continued =>
    cases piece with
    | token content =>
      obtain ⟨wellFormed, stops, legible⟩ := legible
      rw [characters_cons, text, placed]
      refine .token wellFormed ?_ (continued legible _)
      rwa [List.append_nil]
    | space =>
      have blank : isBlank ' ' = true := by decide
      exact .blank blank (continued legible _)
    | newline =>
      have blank : isBlank '\n' = true := by decide
      exact .blank blank (continued legible _)

/-- The tokens of a legible list come out of its text again. -/
theorem tokenize_render {pieces : List Piece} (legible : Legible pieces) :
    ∃ places, tokenize (render pieces) = .ok places ∧ places.map Spanned.node = tokens pieces := by
  refine ⟨placed 0 pieces, tokenize_eq_ok_iff.mpr ?_, map_node_placed 0 pieces⟩
  rw [toList_render]
  exact legible.scans 0

end ContractSyntax
