/-
**Pieces of printed source: tokens and the gaps between them.**

A tree is printed as a list of pieces, so that what is written and how it is laid out can be looked
at apart: `Piece.tokens` forgets the gaps.
-/

import ContractSyntax.Decimal.Layout
import ContractSyntax.Token

namespace ContractSyntax

/-- A token, or a gap between two tokens. -/
inductive Piece where
  | token (token : Token)
  | space
  | newline
  deriving DecidableEq, Inhabited, Repr

namespace Piece

/-- The text of one piece. -/
def text : Piece → String
  | token content => content.text
  | space => " "
  | newline => "\n"

/-- The text of a list of pieces. -/
def render (pieces : List Piece) : String :=
  pieces.foldl (fun text piece => text ++ piece.text) ""

/-- The tokens among the pieces. -/
def tokens (pieces : List Piece) : List Token :=
  pieces.filterMap fun
    | token content => some content
    | _ => none

/-- A symbol as a piece. -/
def sign (symbol : Symbol) : Piece := token (.symbol symbol)

/-- A reserved word as a piece. -/
def word (word : Keyword) : Piece := token (.keyword word)

/-- A name as a piece. -/
def ident (text : String) : Piece := token (.ident text)

/-- The lists one after the other, with `separator` between them. -/
def separated (separator : List Piece) : List (List Piece) → List Piece
  | [] => []
  | [last] => last
  | first :: rest => first ++ separator ++ separated separator rest

/-- The lists one after the other, with a comma and a space between them. -/
def commas (lists : List (List Piece)) : List Piece := separated [sign .comma, space] lists

/-- The lists in parentheses. -/
def parens (lists : List (List Piece)) : List Piece :=
  sign .leftParen :: commas lists ++ [sign .rightParen]

/-- The lists in braces, each after a space; nothing stands between the braces of an empty list. -/
def braces : List (List Piece) → List Piece
  | [] => [sign .leftBrace, sign .rightBrace]
  | lists => sign .leftBrace :: space :: commas lists ++ [space, sign .rightBrace]

/-- The lists in braces, as `braces` writes them, but with a space between the braces of an empty
list. -/
def wideBraces : List (List Piece) → List Piece
  | [] => [sign .leftBrace, space, sign .rightBrace]
  | lists => braces lists

/-- Parentheses around pieces where they are needed. -/
def parenthesized (needed : Bool) (pieces : List Piece) : List Piece :=
  if needed then sign .leftParen :: pieces ++ [sign .rightParen] else pieces

/-- A whole number, with a sign if it is negative. -/
def int (value : Int) : List Piece :=
  let digits := token (.int (toString value.natAbs))
  if value < 0 then [sign .minus, digits] else [digits]

/-- A floating-point number, with a sign if its sign bit is set. -/
def float (value : Binary64) : List Piece :=
  let digits := token (.float value.sourceDigits)
  if value.isNegative && !value.isUndefined then [sign .minus, digits] else [digits]

/-- A truth value. -/
def bool (value : Bool) : Piece := word (if value then .true_ else .false_)

theorem tokens_append (first second : List Piece) :
    tokens (first ++ second) = tokens first ++ tokens second := List.filterMap_append

theorem render_append (first second : List Piece) :
    render (first ++ second) = render first ++ render second := by
  have onto (text : String) (pieces : List Piece) :
      pieces.foldl (fun text piece => text ++ piece.text) text = text ++ render pieces := by
    induction pieces generalizing text with
    | nil => simp [render]
    | cons piece pieces continued =>
      simp only [render, List.foldl_cons] at continued ⊢
      rw [continued, continued ("" ++ piece.text)]
      simp [String.append_assoc]
  rw [render, List.foldl_append, onto]
  rfl

end Piece

end ContractSyntax
