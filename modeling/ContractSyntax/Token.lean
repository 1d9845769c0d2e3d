/-
**Tokens: the words of the source.**

A literal keeps the digits or the content it was written with; its value is found when it is parsed,
so that a number out of range is a fault of the literal and not of the text.

* `Token.text_ofWord`: a word is written as it was read;
* `Symbol.text_injective`: no two symbols share a spelling.
-/

import ContractSyntax.Keyword

namespace ContractSyntax

/-- Operators and punctuation. -/
inductive Symbol where
  | colonColon | colon | arrow | fatArrow | dotDotLess | dotDotEqual | dotDot | dot
  | semicolon | comma | leftParen | rightParen | leftBrace | rightBrace | leftBracket
  | rightBracket | at_ | equalEqual | notEqual | lessEqual | greaterEqual | less | greater
  | equal | plus | minus | star | slash | percent | ampersand
  deriving DecidableEq, Inhabited, Repr

namespace Symbol

/-- How the symbol is written. -/
def text : Symbol → String
  | colonColon => "::" | colon => ":" | arrow => "->" | fatArrow => "=>"
  | dotDotLess => "..<" | dotDotEqual => "..=" | dotDot => ".." | dot => "."
  | semicolon => ";" | comma => "," | leftParen => "(" | rightParen => ")"
  | leftBrace => "\x7b" | rightBrace => "\x7d" | leftBracket => "[" | rightBracket => "]"
  | at_ => "@" | equalEqual => "==" | notEqual => "!=" | lessEqual => "<="
  | greaterEqual => ">=" | less => "<" | greater => ">" | equal => "=" | plus => "+"
  | minus => "-" | star => "*" | slash => "/" | percent => "%" | ampersand => "&"

/-- Whether the symbol separates or encloses, and does not operate. -/
def isPunctuation : Symbol → Bool
  | colonColon | colon | dot | semicolon | comma | leftParen | rightParen | leftBrace | rightBrace
  | leftBracket | rightBracket | at_ => true
  | _ => false

/-- The name under which the symbol is serialized. -/
def label : Symbol → String
  | colonColon => "ColonColon" | colon => "Colon" | arrow => "Arrow" | fatArrow => "FatArrow"
  | dotDotLess => "DotDotLt" | dotDotEqual => "DotDotEq" | dotDot => "DotDot" | dot => "Dot"
  | semicolon => "Semi" | comma => "Comma" | leftParen => "LParen" | rightParen => "RParen"
  | leftBrace => "LBrace" | rightBrace => "RBrace" | leftBracket => "LBracket"
  | rightBracket => "RBracket" | at_ => "At" | equalEqual => "EqEq" | notEqual => "NotEq"
  | lessEqual => "LtEq" | greaterEqual => "GtEq" | less => "Lt" | greater => "Gt"
  | equal => "Eq" | plus => "Plus" | minus => "Minus" | star => "Star" | slash => "Slash"
  | percent => "Percent" | ampersand => "Ampersand"

/-- Every symbol. -/
def all : List Symbol :=
  [colonColon, colon, arrow, fatArrow, dotDotLess, dotDotEqual, dotDot, dot, semicolon, comma,
    leftParen, rightParen, leftBrace, rightBrace, leftBracket, rightBracket, at_, equalEqual,
    notEqual, lessEqual, greaterEqual, less, greater, equal, plus, minus, star, slash, percent,
    ampersand]

theorem mem_all (symbol : Symbol) : symbol ∈ all := by
  cases symbol <;> decide

/-- The symbol with a given spelling. -/
def ofText? (text : String) : Option Symbol := all.find? fun symbol => symbol.text == text

theorem ofText?_text (symbol : Symbol) : ofText? symbol.text = some symbol := by
  cases symbol <;> rfl

theorem toList_text_ne_nil (symbol : Symbol) : symbol.text.toList ≠ [] := by
  cases symbol <;> decide

theorem text_injective {first second : Symbol} (equal : first.text = second.text) :
    first = second := by
  have found := ofText?_text first
  rw [equal, ofText?_text] at found
  exact (Option.some.inj found).symm

end Symbol

/-- One word of the source. -/
inductive Token where
  /-- A whole number, by its digits. -/
  | int (digits : String)
  /-- A number with a decimal point, as written. -/
  | float (digits : String)
  /-- The characters between two quotes; there are no escapes. -/
  | string (content : String)
  | ident (name : String)
  | keyword (word : Keyword)
  | symbol (sign : Symbol)
  deriving DecidableEq, Inhabited, Repr

/-- The classes of tokens that messages and listings name. -/
inductive TokenKind where
  | identifier | keyword | intLiteral | floatLiteral | stringLiteral | operator | punctuation
  | endOfInput
  deriving DecidableEq, Inhabited, Repr

namespace TokenKind

/-- The name of the class in messages. -/
def text : TokenKind → String
  | identifier => "identifier"
  | keyword => "keyword"
  | intLiteral => "integer literal"
  | floatLiteral => "float literal"
  | stringLiteral => "string literal"
  | operator => "operator"
  | punctuation => "punctuation"
  | endOfInput => "end of input"

/-- The name under which the class is serialized. -/
def label : TokenKind → String
  | identifier => "Identifier"
  | keyword => "Keyword"
  | intLiteral => "IntLiteral"
  | floatLiteral => "FloatLiteral"
  | stringLiteral => "StringLiteral"
  | operator => "Operator"
  | punctuation => "Punctuation"
  | endOfInput => "Eof"

end TokenKind

/-- A text in the quotes that mark source text in messages. -/
def quoteSource (text : String) : String := "`" ++ text ++ "`"

namespace Token

/-- The token of a word: reserved or a name. -/
def ofWord (text : String) : Token :=
  match Keyword.ofText? text with
  | some word => keyword word
  | none => ident text

/-- The token as it is written. -/
def text : Token → String
  | int digits => digits
  | float digits => digits
  | string content => "\"" ++ content ++ "\""
  | ident name => name
  | keyword word => word.text
  | symbol sign => sign.text

/-- The class of the token. -/
def kind : Token → TokenKind
  | int _ => .intLiteral
  | float _ => .floatLiteral
  | string _ => .stringLiteral
  | ident _ => .identifier
  | keyword _ => .keyword
  | symbol sign => if sign.isPunctuation then .punctuation else .operator

/-- The token as messages speak of it: a word or literal after its class, a symbol alone. -/
def describe (token : Token) : String :=
  match token with
  | ident _ | keyword _ => token.kind.text ++ " " ++ quoteSource token.text
  | int _ | float _ | string _ => token.kind.text ++ " " ++ token.text
  | symbol _ => quoteSource token.text

/-- What stands at a place of the source, where nothing is the end. -/
def describeFound : Option Token → String
  | some token => token.describe
  | none => TokenKind.endOfInput.text

theorem text_ofWord (text : String) : (ofWord text).text = text := by
  unfold ofWord
  split
  · exact Keyword.text_of_ofText? (by assumption)
  · rfl

theorem ofWord_text (word : Keyword) : ofWord word.text = keyword word := by
  simp [ofWord, Keyword.ofText?_text]

end Token

end ContractSyntax
