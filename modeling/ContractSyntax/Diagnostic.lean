/-
**Diagnostics: faults in words, with their place.**

What a user is told: the kind of fault, a message, and for a fault in a source text its span and the
line and column at which it starts. A syntax error also says what was expected and what was found.
-/

import ContractSyntax.LineIndex
import ContractSyntax.Token.Lexer

namespace ContractSyntax

/-- A fault as it is told to a user. -/
inductive Diagnostic where
  | lexical (message : String) (span : Span) (position : Position)
  | syntactic (message : String) (expected : List String) (found : String) (span : Span)
      (position : Position)
  /-- A file that cannot be read. -/
  | file (message : String)
  deriving DecidableEq, Inhabited, Repr

namespace Diagnostic

/-- What was expected, in words. -/
def expectation : List String → String
  | [] => "something else"
  | [only] => only
  | choices => "one of " ++ String.intercalate ", " choices

/-- The message that one thing was found in the place of others. -/
def unexpectedMessage (expected : List String) (found : String) : String :=
  "expected " ++ expectation expected ++ ", found " ++ found

/-- One thing found in the place of others. -/
def unexpected (expected : List String) (found : String) (span : Span) (position : Position) :
    Diagnostic :=
  .syntactic (unexpectedMessage expected found) expected found span position

/-- The fault alone. -/
def message : Diagnostic → String
  | lexical message _ _ => message
  | syntactic message _ _ _ _ => message
  | file message => message

/-- The text at fault. -/
def span? : Diagnostic → Option Span
  | lexical _ span _ => some span
  | syntactic _ _ _ span _ => some span
  | file _ => none

/-- Where the text at fault starts. -/
def position? : Diagnostic → Option Position
  | lexical _ _ position => some position
  | syntactic _ _ _ _ position => some position
  | file _ => none

/-- The name of the kind of fault. -/
def kind : Diagnostic → String
  | lexical .. => "Lexer"
  | syntactic .. => "Parser"
  | file _ => "IO"

/-- The fault with its kind and, in a source text, its place. -/
def text (diagnostic : Diagnostic) : String :=
  match diagnostic.position? with
  | some position =>
    diagnostic.kind ++ " error at " ++ position.text ++ ": " ++ diagnostic.message
  | none => diagnostic.kind ++ " error: " ++ diagnostic.message

/-- A summary of a list of faults: their number and the first of them. -/
def summary (diagnostics : List Diagnostic) : String :=
  toString diagnostics.length ++ " syntax error(s), first: " ++
    ((diagnostics.head?.map text).getD "")

end Diagnostic

/-- The fault of a text that is no sequence of tokens. -/
def LexError.diagnostic (index : LineIndex) (error : LexError) : Diagnostic :=
  .lexical error.message error.span (index.position error.span.start)

end ContractSyntax
