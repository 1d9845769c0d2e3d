/-
**Syntax errors by their causes.**

An error holds why a token does not fit where it stands; the words for it are put together by one
function for each part.
-/

import ContractSyntax.Diagnostic

namespace ContractSyntax

/-- The deepest nesting that is accepted. -/
def nestingLimit : Nat := 256

/-- What a name stands for. -/
inductive NameRole where
  | boundVariable | loopVariable | field | fieldOrMethod | variant | binding | struct | enumeration
  | function | parameter | mark | modulePath
  deriving DecidableEq, Inhabited, Repr

/-- The name in words. -/
def NameRole.text : NameRole → String
  | boundVariable => "variable name"
  | loopVariable => "loop variable"
  | field => "field name"
  | fieldOrMethod => "field or method name"
  | variant => "variant name"
  | binding => "binding name"
  | struct => "struct name"
  | enumeration => "enum name"
  | function => "function name"
  | parameter => "parameter name"
  | mark => "attribute name"
  | modulePath => "module path"

/-- What could have stood in the place of a token. -/
inductive Expected where
  | token (token : Token)
  | name (role : NameRole)
  | expression | type | pattern | arrayLength | endOfInput
  deriving DecidableEq, Inhabited, Repr

/-- What was expected, in words. -/
def Expected.text : Expected → String
  | token content => quoteSource content.text
  | name role => role.text
  | expression => "expression"
  | type => "type"
  | pattern => "pattern"
  | arrayLength => "array length"
  | endOfInput => TokenKind.endOfInput.text

/-- Why a token does not fit. -/
inductive Cause where
  /-- It is none of those that could stand here. -/
  | unexpected (expected : List Expected)
  /-- One level more would exceed the limit. -/
  | tooDeep
  | integerRange (digits : String)
  | floatRange (digits : String)
  | lengthRange (digits : String)
  /-- The path of a module takes neither attributes nor a visibility. -/
  | decoratedUse
  deriving DecidableEq, Inhabited, Repr

namespace Cause

/-- What could have stood in the place of the token. -/
def expected : Cause → List Expected
  | unexpected expected => expected
  | _ => []

/-- The cause in words, given the words for the token. -/
def message (found : String) : Cause → String
  | unexpected expected => Diagnostic.unexpectedMessage (expected.map Expected.text) found
  | tooDeep => s!"nesting deeper than {nestingLimit} levels"
  | integerRange digits =>
    "malformed literal: integer " ++ quoteSource digits ++ " out of range"
  | floatRange digits => "malformed literal: float " ++ quoteSource digits ++ " out of range"
  | lengthRange digits =>
    "malformed literal: array length " ++ quoteSource digits ++ " out of range"
  | decoratedUse => quoteSource Keyword.use.text ++ " cannot have attributes or visibility"

end Cause

/-- A token that does not fit, or the end of the input where it comes too early. -/
structure SyntaxError where
  cause : Cause
  /-- The token, or nothing at the end of the input. -/
  found : Option Token
  span : Span
  deriving DecidableEq, Inhabited, Repr

namespace SyntaxError

/-- The error in words. -/
def message (error : SyntaxError) : String :=
  error.cause.message (Token.describeFound error.found)

/-- The error with its place. -/
def diagnostic (index : LineIndex) (error : SyntaxError) : Diagnostic :=
  .syntactic error.message (error.cause.expected.map Expected.text)
    (Token.describeFound error.found) error.span (index.position error.span.start)

end SyntaxError

end ContractSyntax
