/-
**From source text to trees.**

The entry points: each reads one text as a program or as a part of one, and tells along with the
result what was reported on the way.
-/

import ContractSyntax.Grammar.Program

namespace ContractSyntax

/-- Why a text is not what it was read as. -/
inductive SourceError where
  | lexical (error : LexError)
  | syntactic (error : SyntaxError)
  deriving DecidableEq, Inhabited, Repr

/-- The error in words and with its place. -/
def SourceError.diagnostic (index : LineIndex) : SourceError → Diagnostic
  | lexical error => error.diagnostic index
  | syntactic error => error.diagnostic index

/-- A value and what was reported on the way to it. -/
structure Logged (α : Type) where
  value : α
  events : List Event

/-- The tokens of a text. -/
def readTokens (source : String) : Logged (Except LexError (List (Spanned Token))) :=
  match tokenize source with
  | .ok tokens => ⟨.ok tokens, [.tokenized source.utf8ByteSize tokens.length]⟩
  | .error error => ⟨.error error, []⟩

/-- The cursor before the tokens of a text that is `size` bytes long. -/
def Cursor.ofSource (size : Nat) (tokens : List (Spanned Token)) (events : List Event) : Cursor :=
  { Cursor.start size tokens with events := events.reverse }

/-- What has been noted, in order. -/
def Cursor.log (cursor : Cursor) : List Event := cursor.events.reverse

/-- Reads a whole text with a parser. -/
def readAll {α : Type} (parser : Parser α) (source : String) : Logged (Except SourceError α) :=
  match readTokens source with
  | ⟨.error error, events⟩ => ⟨.error (.lexical error), events⟩
  | ⟨.ok tokens, events⟩ =>
    let whole := do
      let value ← parser
      Parser.endOfInput
      return value
    let (result, cursor) := whole.start (.ofSource source.utf8ByteSize tokens events)
    ⟨result.mapError .syntactic, cursor.log⟩

/-- Reads an expression. -/
def readExpr (source : String) : Logged (Except SourceError (Spanned Expr)) :=
  readAll Parser.expression source

/-- Reads a type. -/
def readType (source : String) : Logged (Except SourceError (Spanned Ty)) :=
  readAll Parser.type source

/-- Reads a pattern. -/
def readPattern (source : String) : Logged (Except SourceError (Spanned Pattern)) :=
  readAll Parser.pattern source

/-- Reads a contract, which may be absent. -/
def readContract (source : String) : Logged (Except SourceError (Option Contract)) :=
  readAll Parser.contract? source

/-- Reads the tokens of a file as a program, up to the first error. -/
def readProgramTokens (file : String) (size : Nat) (tokens : List (Spanned Token))
    (events : List Event) : Logged (Except SyntaxError Program) :=
  let cursor := Cursor.ofSource size tokens (events ++ [.started file tokens.length none])
  match Parser.program.start cursor with
  | (.ok program, cursor) =>
    ⟨.ok program, (cursor.note (.finished file program.items.length)).log⟩
  | (.error error, cursor) => ⟨.error error, cursor.log⟩

/-- Reads a file as a program, up to the first error. -/
def readProgram (file source : String) : Logged (Except SourceError Program) :=
  match readTokens source with
  | ⟨.error error, events⟩ => ⟨.error (.lexical error), events⟩
  | ⟨.ok tokens, events⟩ =>
    let read := readProgramTokens file source.utf8ByteSize tokens events
    ⟨read.value.mapError .syntactic, read.events⟩

/-- Reads the tokens of a file as a program under the options given. -/
def collectProgramTokens (options : ParseOptions) (file : String) (size : Nat)
    (tokens : List (Spanned Token)) (events : List Event) :
    Logged (Except (List SyntaxError) Program) :=
  let started := Event.started file tokens.length (some options.errorMode)
  let collected := collect options (.ofSource size tokens (events ++ [started]))
  ⟨collected.result, collected.cursor.log⟩

/-- Reads a file as a program under the options given. -/
def collectProgram (options : ParseOptions) (file source : String) :
    Logged (Except LexError (Except (List SyntaxError) Program)) :=
  match readTokens source with
  | ⟨.error error, events⟩ => ⟨.error error, events⟩
  | ⟨.ok tokens, events⟩ =>
    let read := collectProgramTokens options file source.utf8ByteSize tokens events
    ⟨.ok read.value, read.events⟩

end ContractSyntax
