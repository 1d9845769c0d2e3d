/-
**From text to tokens.**

At each place blanks and comments are passed over, and otherwise the longest token that starts there
is taken. A comment runs from two slashes to the end of its line. The first place at which no token
starts ends the reading.

* `Token.take?_eq`: a token is written with the characters it was taken from;
* `Token.text_ne_of_take?`: which are one at least, so the reading ends.
-/

import ContractSyntax.Span
import ContractSyntax.Text.Blank
import ContractSyntax.Text.Quoted
import ContractSyntax.Token

namespace ContractSyntax

/-- Why a text is no sequence of tokens. -/
inductive LexError where
  /-- A quote opens a string and no other closes it before the text ends, at `stop`. -/
  | unterminatedString (start stop : Nat)
  /-- No token starts with the character at `start`. -/
  | unexpectedCharacter (character : Char) (start : Nat)
  deriving DecidableEq, Inhabited, Repr

namespace LexError

/-- The text at fault. -/
def span : LexError → Span
  | unterminatedString start stop => ⟨start, stop⟩
  | unexpectedCharacter character start => ⟨start, start + character.utf8Size⟩

/-- The fault in words. -/
def message : LexError → String
  | unterminatedString _ _ => "unterminated string literal"
  | unexpectedCharacter character _ => "unexpected character: " ++ quoteCharacter character

end LexError

/-- Whether a word may start with a character. -/
def startsWord (character : Char) : Bool := character.isAlpha || character == '_'

/-- Whether a word may go on with a character. -/
def continuesWord (character : Char) : Bool := character.isAlphanum || character == '_'

/-- The longest symbol at the head of a text, and what follows it. -/
def Symbol.take? : List Char → Option (Symbol × List Char)
  | '.' :: '.' :: '<' :: rest => some (.dotDotLess, rest)
  | '.' :: '.' :: '=' :: rest => some (.dotDotEqual, rest)
  | '.' :: '.' :: rest => some (.dotDot, rest)
  | '.' :: rest => some (.dot, rest)
  | ':' :: ':' :: rest => some (.colonColon, rest)
  | ':' :: rest => some (.colon, rest)
  | '-' :: '>' :: rest => some (.arrow, rest)
  | '-' :: rest => some (.minus, rest)
  | '=' :: '>' :: rest => some (.fatArrow, rest)
  | '=' :: '=' :: rest => some (.equalEqual, rest)
  | '=' :: rest => some (.equal, rest)
  | '!' :: '=' :: rest => some (.notEqual, rest)
  | '<' :: '=' :: rest => some (.lessEqual, rest)
  | '<' :: rest => some (.less, rest)
  | '>' :: '=' :: rest => some (.greaterEqual, rest)
  | '>' :: rest => some (.greater, rest)
  | ';' :: rest => some (.semicolon, rest)
  | ',' :: rest => some (.comma, rest)
  | '(' :: rest => some (.leftParen, rest)
  | ')' :: rest => some (.rightParen, rest)
  | '\x7b' :: rest => some (.leftBrace, rest)
  | '\x7d' :: rest => some (.rightBrace, rest)
  | '[' :: rest => some (.leftBracket, rest)
  | ']' :: rest => some (.rightBracket, rest)
  | '@' :: rest => some (.at_, rest)
  | '+' :: rest => some (.plus, rest)
  | '*' :: rest => some (.star, rest)
  | '/' :: rest => some (.slash, rest)
  | '%' :: rest => some (.percent, rest)
  | '&' :: rest => some (.ampersand, rest)
  | _ => none

theorem Symbol.take?_eq {characters rest : List Char} {symbol : Symbol}
    (taken : Symbol.take? characters = some (symbol, rest)) :
    characters = symbol.text.toList ++ rest := by
  unfold Symbol.take? at taken
  split at taken <;> cases taken <;> rfl

namespace Token

/-- The number at the head of a text that starts with a digit. A point belongs to it only if a
digit follows. -/
def takeNumber (characters : List Char) : Token × List Char :=
  let whole := characters.takeWhile Char.isDigit
  match characters.dropWhile Char.isDigit with
  | '.' :: digit :: rest =>
    if digit.isDigit then
      let places := (digit :: rest).takeWhile Char.isDigit
      (float (String.ofList (whole ++ '.' :: places)), (digit :: rest).dropWhile Char.isDigit)
    else (int (String.ofList whole), '.' :: digit :: rest)
  | rest => (int (String.ofList whole), rest)

/-- The string whose content is at the head of a text, if a quote closes it. -/
def takeString? (characters : List Char) : Option (Token × List Char) :=
  match characters.dropWhile (· != '"') with
  | _ :: rest => some (string (String.ofList (characters.takeWhile (· != '"'))), rest)
  | [] => none

/-- The longest token at the head of a text, and what follows it. -/
def take? : List Char → Option (Token × List Char)
  | [] => none
  | first :: rest =>
    if startsWord first then
      some (ofWord (String.ofList (first :: rest.takeWhile continuesWord)),
        rest.dropWhile continuesWord)
    else if first.isDigit then some (takeNumber (first :: rest))
    else if first = '"' then takeString? rest
    else (Symbol.take? (first :: rest)).map fun (taken, rest) => (symbol taken, rest)

theorem takeNumber_eq (characters : List Char) :
    characters = (takeNumber characters).1.text.toList ++ (takeNumber characters).2 := by
  have split := List.takeWhile_append_dropWhile (p := Char.isDigit) (l := characters)
  unfold takeNumber
  dsimp only
  split
  · next digit rest point =>
    rw [point] at split
    split
    · have places := List.takeWhile_append_dropWhile (p := Char.isDigit) (l := digit :: rest)
      simp only [text, String.toList_ofList, List.append_assoc, List.cons_append, places, split]
    · simp only [text, String.toList_ofList, split]
  · simp only [text, String.toList_ofList, split]

theorem takeString?_eq {characters rest : List Char} {token : Token}
    (taken : takeString? characters = some (token, rest)) :
    '"' :: characters = token.text.toList ++ rest := by
  have split := List.takeWhile_append_dropWhile (p := (· != '"')) (l := characters)
  unfold takeString? at taken
  split at taken
  · next quote after closed =>
    cases taken
    have last := List.head?_dropWhile_not (· != '"') characters
    rw [closed] at last split
    simp only [List.head?_cons, bne_eq_false_iff_eq] at last
    subst last
    simpa [text, String.toList_append] using split.symm
  · cases taken

/-- A token is written with the characters it was taken from. -/
theorem take?_eq {characters rest : List Char} {token : Token}
    (taken : take? characters = some (token, rest)) :
    characters = token.text.toList ++ rest := by
  cases characters with
  | nil => cases taken
  | cons first after =>
    simp only [take?] at taken
    split at taken
    · cases taken
      simp [text_ofWord]
    · split at taken
      · have written := takeNumber_eq (first :: after)
        rw [Option.some.inj taken] at written
        exact written
      · split at taken
        · next quote =>
          subst quote
          exact takeString?_eq taken
        · obtain ⟨⟨found, remaining⟩, symbol, equal⟩ := Option.map_eq_some_iff.mp taken
          cases equal
          exact Symbol.take?_eq symbol

theorem text_ne_of_take? {characters rest : List Char} {token : Token}
    (taken : take? characters = some (token, rest)) : token.text.toList ≠ [] := by
  cases characters with
  | nil => cases taken
  | cons first after =>
    simp only [take?] at taken
    split at taken
    · cases taken
      simp [text_ofWord]
    · split at taken
      · next digit =>
        have number := Option.some.inj taken
        simp only [takeNumber] at number
        split at number
        · split at number <;> cases number <;> simp [text, digit]
        · cases number
          simp [text, digit]
      · split at taken
        · unfold takeString? at taken
          split at taken <;> cases taken
          simp [text]
        · obtain ⟨⟨found, remaining⟩, _, equal⟩ := Option.map_eq_some_iff.mp taken
          cases equal
          exact found.toList_text_ne_nil

/-- What follows a token is shorter. -/
theorem take?_lt {characters rest : List Char} {token : Token}
    (taken : take? characters = some (token, rest)) : rest.length < characters.length := by
  have written := congrArg List.length (take?_eq taken)
  have some := List.length_pos_iff.mpr (text_ne_of_take? taken)
  rw [List.length_append] at written
  omega

end Token

/-- The comment at the head of a text, and what follows it, from the end of the line on. -/
def takeComment? : List Char → Option (List Char × List Char)
  | '/' :: '/' :: rest =>
    some ('/' :: '/' :: rest.takeWhile (· != '\n'), rest.dropWhile (· != '\n'))
  | _ => none

theorem takeComment?_eq {characters comment rest : List Char}
    (taken : takeComment? characters = some (comment, rest)) : characters = comment ++ rest := by
  unfold takeComment? at taken
  split at taken <;> cases taken
  simp

/-- What follows a comment is shorter. -/
theorem takeComment?_lt {characters comment rest : List Char}
    (taken : takeComment? characters = some (comment, rest)) : rest.length < characters.length := by
  unfold takeComment? at taken
  split at taken <;> cases taken
  have shorter := (List.dropWhile_suffix (p := (· != '\n')) (l := ‹List Char›)).length_le
  simp only [List.length_cons]
  omega

/-- The length of a text in bytes. -/
def byteLength (characters : List Char) : Nat :=
  characters.foldl (fun length character => length + character.utf8Size) 0

/-- Reads the rest of a text, which starts at `offset`, after the tokens `found`, latest first. -/
def scan (offset : Nat) (found : List (Spanned Token)) :
    List Char → Except LexError (List (Spanned Token))
  | [] => .ok found.reverse
  | first :: rest =>
    if isBlank first then scan (offset + first.utf8Size) found rest
    else
      match _comment : takeComment? (first :: rest) with
      | some (comment, after) => scan (offset + byteLength comment) found after
      | none =>
        match _taken : Token.take? (first :: rest) with
        | some (token, after) =>
          let stop := offset + token.text.utf8ByteSize
          scan stop (⟨token, offset, stop⟩ :: found) after
        | none =>
          .error <|
            if first = '"' then .unterminatedString offset (offset + byteLength (first :: rest))
            else .unexpectedCharacter first offset
termination_by characters => characters.length
decreasing_by
  · exact Nat.lt_succ_self _
  · exact takeComment?_lt _comment
  · exact Token.take?_lt _taken

/-- The tokens of a text, each with the bytes it was read from. -/
def tokenize (source : String) : Except LexError (List (Spanned Token)) := scan 0 [] source.toList

end ContractSyntax
