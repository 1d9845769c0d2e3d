/-
**What two texts have in common.**

Printing may leave out a comma before a closing symbol, put braces around the rest of a block and
write a number with other digits. Nothing else is changed. `contents` forgets just that much of a row
of tokens.

Rows are compared by what they add in front of any others. A comma adds itself or nothing, which
depends on the token behind it, so a phrase behind a comma has to be known to open: to begin with a
token that closes nothing.

Braces are only ever added. So the tokens themselves, but for commas, are among the printed ones.

* `contents`: the tokens that count, with numbers by value;
* `Alike`: what two rows of tokens have in common;
* `Alike.row`: rows of like phrases are alike, with a comma behind the last phrase or without.
-/

import ContractSyntax.Proofs.Printing.Derivation

namespace ContractSyntax

open Piece

namespace Token

/-- Whether the token closes what another one opened. -/
def closes : Token → Bool
  | symbol .rightParen | symbol .rightBracket | symbol .rightBrace => true
  | _ => false

/-- Whether the token is a comma. -/
def isComma : Token → Bool
  | symbol .comma => true
  | _ => false

/-- Whether the token is a brace. -/
def isBrace : Token → Bool
  | symbol .leftBrace | symbol .rightBrace => true
  | _ => false

theorem ne_comma {token : Token} (other : token.isComma = false) : token ≠ .symbol .comma := by
  rintro rfl
  cases other

theorem isComma_of_closes {token : Token} (closes : token.closes = true) :
    token.isComma = false := by
  unfold isComma
  split
  · cases closes
  · rfl

end Token

/-- A token as it counts. -/
inductive Content where
  /-- A whole number, by its value. -/
  | int (value : Nat)
  /-- A number with a point, by the number it denotes if that is finite. -/
  | float (value : Option Binary64)
  /-- Another token, by itself. -/
  | other (token : Token)

/-- What a token counts as. -/
def Token.content : Token → Content
  | int digits => .int (digitsValue digits.toList)
  | float digits => .float (readBinary64? digits)
  | word => .other word

/-- The tokens without each comma that stands directly before a closing symbol. -/
def dropCommas : List Token → List Token
  | [] => []
  | first :: rest =>
    if first = .symbol .comma ∧ rest.head?.any Token.closes then dropCommas rest
    else first :: dropCommas rest

/-- What some tokens count as: those that are left without commas before closing symbols and then
without braces, with numbers by value. -/
def contents (tokens : List Token) : List Content :=
  ((dropCommas tokens).filter fun token => !token.isBrace).map Token.content

/-- The tokens without commas, with numbers by value. -/
def marks (tokens : List Token) : List Content :=
  (tokens.filter fun token => !token.isComma).map Token.content

@[simp] theorem marks_nil : marks [] = [] := rfl

@[simp] theorem marks_append (first second : List Token) :
    marks (first ++ second) = marks first ++ marks second := by
  simp [marks]

theorem marks_cons {token : Token} (other : token.isComma = false) (rest : List Token) :
    marks (token :: rest) = token.content :: marks rest := by
  simp [marks, other]

@[simp] theorem marks_comma (rest : List Token) : marks (.symbol .comma :: rest) = marks rest := rfl

/-! ### What tokens add -/

/-- What some tokens add in front of any others. -/
def Adds (tokens : List Token) (added : List Content) : Prop :=
  ∀ rest, contents (tokens ++ rest) = added ++ contents rest

namespace Adds

variable {first second : List Token} {added more : List Content}

theorem nil : Adds [] [] := fun _ => rfl

theorem append (before : Adds first added) (after : Adds second more) :
    Adds (first ++ second) (added ++ more) := by
  intro rest
  rw [List.append_assoc, before, after, List.append_assoc]

theorem token {token : Token} (other : token.isComma = false) :
    Adds [token] (if token.isBrace then [] else [token.content]) := by
  intro rest
  have kept : dropCommas (token :: rest) = token :: dropCommas rest := by
    rw [dropCommas, if_neg (fun both => Token.ne_comma other both.1)]
  cases brace : token.isBrace with
  | false => simp [contents, kept, brace]
  | true => simp [contents, kept, brace]

/-- A comma counts before a token that closes nothing. -/
theorem comma {token : Token} (opens : token.closes = false) (adds : Adds (token :: second) more) :
    Adds (.symbol .comma :: token :: second) (.other (.symbol .comma) :: more) := by
  intro rest
  have kept : dropCommas (.symbol .comma :: token :: (second ++ rest)) =
      .symbol .comma :: dropCommas (token :: (second ++ rest)) := by
    rw [dropCommas, if_neg (by simp [opens])]
  have others := adds rest
  simp only [contents, List.cons_append, kept] at others ⊢
  rw [List.filter_cons_of_pos rfl, List.map_cons, others]
  rfl

/-- A comma does not count before a closing symbol. -/
theorem trailing {token : Token} (closes : token.closes = true) (adds : Adds [token] more) :
    Adds [.symbol .comma, token] more := by
  intro rest
  have dropped : dropCommas (.symbol .comma :: token :: rest) = dropCommas (token :: rest) := by
    rw [dropCommas, if_pos (by simp [closes])]
  have others := adds rest
  simp only [contents, List.cons_append, List.nil_append, dropped] at others ⊢
  exact others

end Adds

/-! ### Like rows of tokens -/

/-- Whether the tokens of one row count as much as those of another, whatever follows each, and
those of the first row are among those of the second, but for commas. -/
structure Alike (first second : List Token) : Prop where
  added : ∃ added, Adds first added ∧ Adds second added
  marked : (marks first).Sublist (marks second)

/-- Whether two rows are alike and neither begins with a closing symbol. -/
def Opening (first second : List Token) : Prop :=
  Alike first second ∧
    (∃ token rest, first = token :: rest ∧ token.closes = false) ∧
    ∃ token rest, second = token :: rest ∧ token.closes = false

variable {first second first' second' : List Token}

namespace Alike

theorem contents_eq (alike : Alike first second) : contents first = contents second := by
  obtain ⟨added, before, after⟩ := alike.added
  rw [← List.append_nil first, before, ← List.append_nil second, after]

theorem nil : Alike [] [] := ⟨⟨[], .nil, .nil⟩, .slnil⟩

theorem append (before : Alike first second) (after : Alike first' second') :
    Alike (first ++ first') (second ++ second') := by
  obtain ⟨⟨added, source, printed⟩, marked⟩ := before
  obtain ⟨⟨more, source', printed'⟩, marked'⟩ := after
  refine ⟨⟨added ++ more, source.append source', printed.append printed'⟩, ?_⟩
  rw [marks_append, marks_append]
  exact marked.append marked'

theorem token (token : Token) (other : token.isComma = false) : Alike [token] [token] :=
  ⟨⟨_, .token other, .token other⟩, .refl _⟩

/-- Two tokens that count as much. -/
theorem literal {source printed : Token} (same : source.content = printed.content)
    (brace : source.isBrace = printed.isBrace) (other : source.isComma = false)
    (other' : printed.isComma = false) : Alike [source] [printed] := by
  have marked : marks [source] = marks [printed] := by
    rw [marks_cons other, marks_cons other', same]
  refine ⟨⟨_, .token other, ?_⟩, marked ▸ .refl _⟩
  rw [same, brace]
  exact .token other'

theorem cons (token : Token) (other : token.isComma = false) (rest : Alike first second) :
    Alike (token :: first) (token :: second) :=
  (Alike.token token other).append rest

/-- Braces around tokens do not count. -/
theorem braced (alike : Alike first second) :
    Alike first (.symbol .leftBrace :: (second ++ [.symbol .rightBrace])) := by
  obtain ⟨⟨added, source, printed⟩, marked⟩ := alike
  have opened : Adds [.symbol .leftBrace] [] := .token rfl
  have closed : Adds [.symbol .rightBrace] [] := .token rfl
  have whole := opened.append (printed.append closed)
  rw [List.append_nil, List.nil_append] at whole
  refine ⟨⟨added, source, whole⟩, ?_⟩
  rw [marks_cons rfl, marks_append]
  exact (marked.trans (List.sublist_append_left _ _)).cons _

end Alike

namespace Opening

theorem cons (token : Token) (other : token.isComma = false) (opens : token.closes = false)
    (rest : Alike first second) : Opening (token :: first) (token :: second) :=
  ⟨.cons token other rest, ⟨_, _, rfl, opens⟩, ⟨_, _, rfl, opens⟩⟩

theorem append (before : Opening first second) (after : Alike first' second') :
    Opening (first ++ first') (second ++ second') := by
  obtain ⟨alike, ⟨token, rest, rfl, opens⟩, ⟨token', rest', rfl, opens'⟩⟩ := before
  exact ⟨alike.append after, ⟨_, _, rfl, opens⟩, ⟨_, _, rfl, opens'⟩⟩

theorem comma (opening : Opening first second) :
    Alike (.symbol .comma :: first) (.symbol .comma :: second) := by
  obtain ⟨⟨⟨added, source, printed⟩, marked⟩, ⟨token, rest, rfl, opens⟩,
    ⟨token', rest', rfl, opens'⟩⟩ := opening
  exact ⟨⟨_, .comma opens source, .comma opens' printed⟩, marked⟩

/-- Rows of like phrases are alike before a closing symbol. -/
theorem row {α : Type} {source : α → Tokens} {printed : α → List Piece} {close : Token}
    (closes : close.closes = true) {value : α} {values : List α} {tokens : Tokens}
    (row : Commas (source value :: values.map source) tokens)
    (each : ∀ member ∈ value :: values,
      Opening ((source member).map Spanned.node) (Piece.tokens (printed member))) :
    Opening (tokens.map Spanned.node ++ [close])
      (Piece.tokens (commas ((value :: values).map printed)) ++ [close]) := by
  have noComma := Token.isComma_of_closes closes
  induction values generalizing value tokens with
  | nil =>
    have here := each value List.mem_cons_self
    generalize same : source value :: [].map source = lists at row
    cases row with
    | none => cases same
    | last =>
      cases same
      exact here.append (.token close noComma)
    | more _ comma continued =>
      cases same
      cases continued
      rw [List.map_append, List.append_assoc]
      refine here.append ?_
      exact ⟨⟨_, .trailing closes (.token noComma), .token noComma⟩, .refl _⟩
  | cons second others continued =>
    have here := each value List.mem_cons_self
    generalize same : source value :: (second :: others).map source = lists at row
    cases row with
    | none => cases same
    | last => cases same
    | more _ comma rest =>
      cases same
      have behind := continued rest fun member inside => each member (List.mem_cons_of_mem _ inside)
      have whole := here.append behind.comma
      simpa [commas, separated] using whole

end Opening

/-- Rows of like phrases are alike before a closing symbol, also if there are none. -/
theorem Alike.row {α : Type} {source : α → Tokens} {printed : α → List Piece} {close : Token}
    (closes : close.closes = true) {values : List α} {tokens : Tokens}
    (row : Commas (values.map source) tokens)
    (each : ∀ member ∈ values,
      Opening ((source member).map Spanned.node) (Piece.tokens (printed member))) :
    Alike (tokens.map Spanned.node ++ [close])
      (Piece.tokens (commas (values.map printed)) ++ [close]) := by
  cases values with
  | nil =>
    cases row
    exact .token close (Token.isComma_of_closes closes)
  | cons value values => exact (Opening.row closes row each).1

end ContractSyntax
