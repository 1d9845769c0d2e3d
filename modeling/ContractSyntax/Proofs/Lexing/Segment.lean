/-
**Pieces that stay apart.**

What has to be known of the text around some pieces, for them to be legible in it, is how it begins.
There are two kinds of beginnings: `operand`, with which no symbol goes on, and `separator`, with
which no word or number does. A segment asks for one of them behind it and offers one to what stands
before it, so that segments are put together by their edges alone.

* `Segment.append`: two segments with the same edge between them make up one;
* `Segment.operand`, `Segment.symbol`, `Segment.free`: single tokens.
-/

import ContractSyntax.Proofs.Lexing.Rendering

namespace ContractSyntax

open Piece

/-- How a text may begin. -/
inductive Edge where
  /-- With nothing that makes another symbol of one before it. -/
  | operand
  /-- With nothing that makes another word or number of one before it. -/
  | separator

/-- Whether a text begins in a way. -/
def Edge.Begins : Edge → List Char → Prop
  | operand, text => ∀ next, text.head? = some next → next ∉ ['.', '<', '=', ':', '>', '/']
  | separator, text =>
    (∀ next, text.head? = some next → continuesWord next = false) ∧
      ∀ next after, text = '.' :: next :: after → next.isDigit = false

/-- Whether pieces begin in one way and are legible before whatever begins in the other. -/
def Segment (first last : Edge) (pieces : List Piece) : Prop :=
  ∀ rest, Legible rest → last.Begins (characters rest) →
    Legible (pieces ++ rest) ∧ first.Begins (characters (pieces ++ rest))

/-- Whether nothing goes on with the symbol, and it goes on with nothing. -/
def Symbol.isFree : Symbol → Bool
  | .leftParen | .rightParen | .leftBracket | .rightBracket | .leftBrace | .rightBrace
  | .semicolon | .comma | .at_ | .ampersand | .star => true
  | _ => false

namespace Segment

variable {first middle last : Edge} {pieces others : List Piece}

theorem nil : Segment last last [] := fun _ legible begins => ⟨legible, begins⟩

theorem append (before : Segment first middle pieces) (after : Segment middle last others) :
    Segment first last (pieces ++ others) := by
  intro rest legible begins
  obtain ⟨legible, begins⟩ := after rest legible begins
  rw [List.append_assoc]
  exact before _ legible begins

theorem cons {piece : Piece} (before : Segment first middle [piece])
    (after : Segment middle last others) : Segment first last (piece :: others) :=
  before.append after

/-- A segment before nothing is legible alone. -/
theorem legible (segment : Segment first last pieces) : Legible pieces := by
  have alone := (segment [] trivial (by cases last <;> simp [Edge.Begins, characters])).1
  rwa [List.append_nil] at alone

/-! ### Single pieces -/

/-- A blank is no part of a token. -/
theorem begins_blank (edge : Edge) {blank : Char} (isBlank : isBlank blank = true)
    (text : List Char) : edge.Begins (blank :: text) := by
  have other {next : Char} (part : ContractSyntax.isBlank next = false) : blank ≠ next := by
    rintro rfl
    cases isBlank.symm.trans part
  cases edge with
  | operand =>
    rintro next ⟨⟩ member
    simp only [List.mem_cons, List.not_mem_nil, or_false] at member
    rcases member with same | same | same | same | same | same <;> exact other (by decide) same
  | separator =>
    refine ⟨?_, fun next after same => absurd (List.head_eq_of_cons_eq same) (other (by decide))⟩
    rintro next ⟨⟩
    exact Bool.eq_false_iff.mpr fun word => other (Token.isBlank_of_continuesWord word) rfl

theorem space : Segment first last [space] := fun _ legible _ =>
  ⟨legible, begins_blank _ (by decide) _⟩

theorem newline : Segment first last [newline] := fun _ legible _ =>
  ⟨legible, begins_blank _ (by decide) _⟩

theorem token {content : Token} (wellFormed : content.WellFormed)
    (begins : ∀ text, first.Begins (content.text.toList ++ text))
    (stops : ∀ text, last.Begins text → content.Stops text) :
    Segment first last [.token content] := fun rest legible edge =>
  ⟨⟨wellFormed, stops _ edge, legible⟩, begins (characters rest)⟩

theorem isDigit_of_not_continuesWord {next : Char} (other : continuesWord next = false) :
    next.isDigit = false := by
  simp only [continuesWord, Char.isAlphanum, Bool.or_eq_false_iff] at other
  exact other.1.2

/-- A token that is no symbol ends where a separator begins. -/
theorem stops_of_separator {content : Token} (other : ∀ sign, content ≠ .symbol sign)
    {text : List Char} (begins : Edge.separator.Begins text) : content.Stops text := by
  have digit := fun next head => isDigit_of_not_continuesWord (begins.1 next head)
  cases content with
  | ident | keyword => exact begins.1
  | int => exact ⟨digit, begins.2⟩
  | float => exact digit
  | string => trivial
  | symbol sign => exact absurd rfl (other sign)

/-- A symbol ends where an operand begins. -/
theorem stops_of_operand (sign : Symbol) {text : List Char} (begins : Edge.operand.Begins text) :
    (Token.symbol sign).Stops text := by
  intro next head
  have other := begins next head
  simp only [List.mem_cons, List.not_mem_nil, or_false, not_or] at other
  obtain ⟨dot, less, equal, colon, greater, slash⟩ := other
  cases sign <;> simp [Symbol.joins, dot, less, equal, colon, greater, slash]

/-- Every token ends where a blank stands. -/
theorem stops_of_blank (content : Token) {blank : Char} (isBlank : isBlank blank = true)
    (text : List Char) : content.Stops (blank :: text) := by
  by_cases symbol : ∃ sign, content = .symbol sign
  · obtain ⟨sign, rfl⟩ := symbol
    exact stops_of_operand sign (begins_blank .operand isBlank text)
  · exact stops_of_separator (fun sign same => symbol ⟨sign, same⟩)
      (begins_blank .separator isBlank text)

/-- Words and literals begin as operands do. -/
theorem begins_operand {content : Token} (wellFormed : content.WellFormed)
    (other : ∀ sign, content ≠ .symbol sign) (text : List Char) :
    Edge.operand.Begins (content.text.toList ++ text) := by
  have letter {first : Char} (starts : startsWord first = true) :
      first ∉ ['.', '<', '=', ':', '>', '/'] := by
    intro member
    simp only [List.mem_cons, List.not_mem_nil, or_false] at member
    rcases member with rfl | rfl | rfl | rfl | rfl | rfl <;> cases starts
  have number {first : Char} (digit : first.isDigit = true) :
      first ∉ ['.', '<', '=', ':', '>', '/'] := by
    intro member
    simp only [List.mem_cons, List.not_mem_nil, or_false] at member
    rcases member with rfl | rfl | rfl | rfl | rfl | rfl <;> cases digit
  have word {spelled : String} (spells : IsWord spelled) :
      Edge.operand.Begins (spelled.toList ++ text) := by
    obtain ⟨first, others, same, starts, _⟩ := spells
    rw [same]
    rintro next ⟨⟩
    exact letter starts
  cases content with
  | int digits =>
    obtain ⟨first, others, same⟩ := List.exists_cons_of_ne_nil wellFormed.1
    rintro next head
    rw [Token.text, same] at head
    cases head
    exact number (wellFormed.2 first (same ▸ List.mem_cons_self))
  | float digits =>
    obtain ⟨whole, places, same, some, _, within⟩ := wellFormed
    obtain ⟨first, others, rfl⟩ := List.exists_cons_of_ne_nil some
    rintro next head
    rw [Token.text, same] at head
    cases head
    exact number (within first (by simp))
  | string content =>
    rintro next head
    rw [Token.text, String.toList_append, String.toList_append] at head
    cases head
    decide
  | ident name => exact word wellFormed.1
  | keyword spelled => exact word spelled.isWord
  | symbol sign => exact absurd rfl (other sign)

/-- A word or literal. -/
theorem operand {content : Token} (wellFormed : content.WellFormed)
    (other : ∀ sign, content ≠ .symbol sign) :
    Segment .operand .separator [.token content] :=
  token wellFormed (begins_operand wellFormed other) fun _ => stops_of_separator other

theorem ident {name : String} (wellFormed : (Token.ident name).WellFormed) :
    Segment .operand .separator [ident name] := operand wellFormed nofun

theorem word (keyword : Keyword) : Segment .operand .separator [word keyword] :=
  operand (show (Token.keyword keyword).WellFormed from trivial) nofun

/-- Symbols other than a point begin as separators do. -/
theorem begins_separator (sign : Symbol) (other : sign ≠ .dot) (text : List Char) :
    Edge.separator.Begins (sign.text.toList ++ text) := by
  cases sign with
  | dot => exact absurd rfl other
  | _ =>
    refine ⟨?_, ?_⟩
    · rintro next ⟨⟩
      decide
    · rintro next after ⟨⟩
      try decide

/-- A symbol other than a point. -/
theorem symbol (sign : Symbol) (other : sign ≠ .dot) :
    Segment .separator .operand [Piece.sign sign] :=
  token trivial (begins_separator sign other) fun _ => stops_of_operand sign

/-- A symbol that nothing goes on with, and that goes on with nothing. -/
theorem free (sign : Symbol) (bare : sign.isFree = true) : Segment first last [Piece.sign sign] := by
  refine token trivial (fun text => ?_) fun text _ => ?_
  · cases sign <;> cases bare <;>
    cases first with
    | operand =>
      rintro next ⟨⟩
      decide
    | separator =>
      refine ⟨?_, nofun⟩
      rintro next ⟨⟩
      decide
  · cases sign <;> cases bare <;> exact fun _ _ => rfl

end Segment

end ContractSyntax
