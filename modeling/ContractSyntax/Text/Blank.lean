/-
**Blank characters: what may separate two tokens.**

The twenty-five characters of the Unicode property `White_Space`, and the byte order mark, which
counts as blank wherever it stands.

* `isBlank_of_isWhitespace`: every ASCII blank is among them.
-/

namespace ContractSyntax

/-- The code points of `White_Space`. -/
def whiteSpace : List Nat :=
  [0x9, 0xa, 0xb, 0xc, 0xd, 0x20, 0x85, 0xa0, 0x1680, 0x2000, 0x2001, 0x2002, 0x2003, 0x2004,
    0x2005, 0x2006, 0x2007, 0x2008, 0x2009, 0x200a, 0x2028, 0x2029, 0x202f, 0x205f, 0x3000]

/-- The byte order mark. -/
def byteOrderMark : Nat := 0xfeff

/-- Whether a character separates tokens without being part of one. -/
def isBlank (character : Char) : Bool :=
  character.toNat ∈ whiteSpace || character.toNat == byteOrderMark

example : whiteSpace.length = 25 := rfl

theorem isBlank_of_isWhitespace {character : Char} (white : character.isWhitespace = true) :
    isBlank character = true := by
  simp only [Char.isWhitespace, Bool.or_eq_true, decide_eq_true_eq] at white
  rcases white with ((rfl | rfl) | rfl) | rfl <;> decide

end ContractSyntax
