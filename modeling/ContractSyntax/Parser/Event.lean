/-
**Events: what parsing reports while it runs.**

Each event has a level, the subsystem that reports it, and a message. Events hold data; they are put
into words only when they are written.
-/

import ContractSyntax.Parser.SyntaxError
import ContractSyntax.Tree.Primitive

namespace ContractSyntax

/-- How much detail an event adds. -/
inductive EventLevel where
  | debug | trace
  deriving DecidableEq, Inhabited, Repr

/-- The level as it is written. -/
def EventLevel.text : EventLevel → String
  | debug => "DEBUG"
  | trace => "TRACE"

/-- Whether a log at the first level holds events of the second. -/
def EventLevel.includes : EventLevel → EventLevel → Bool
  | debug, trace => false
  | _, _ => true

/-- Whether parsing stops at the first error or goes on with the next definition. -/
inductive ErrorMode where
  | failFast | collect
  deriving DecidableEq, Inhabited, Repr

/-- The name of the mode. -/
def ErrorMode.label : ErrorMode → String
  | failFast => "FailFast"
  | collect => "Collect"

/-- Something worth reporting. -/
inductive Event where
  | tokenized (bytes tokens : Nat)
  /-- A file is about to be parsed, under a stated error mode or simply. -/
  | started (file : String) (tokens : Nat) (mode : Option ErrorMode)
  | finished (file : String) (items : Nat)
  | bound (name : String) (isMutable : Bool)
  | refined (base : Primitive) (constraints : Nat)
  | conditioned (conditions : Nat)
  /-- A definition, by its name if it introduces one, and where it starts. -/
  | defined (name : Option String) (start : Nat)
  /-- A definition that starts with a given token cannot be parsed. -/
  | failed (index : Nat) (error : SyntaxError)
  /-- Parsing goes on at a given token. -/
  | resumed (index : Nat)
  deriving DecidableEq, Inhabited, Repr

namespace Event

/-- The detail that the event adds. -/
def level : Event → EventLevel
  | started .. | finished .. | defined .. | failed .. => .debug
  | tokenized .. | bound .. | refined .. | conditioned .. | resumed .. => .trace

/-- The subsystem that reports the event. -/
def target : Event → String
  | tokenized .. => "bmb_syntax::lexer"
  | bound .. => "bmb_syntax::parser::expr"
  | refined .. => "bmb_syntax::parser::types"
  | conditioned .. => "bmb_syntax::parser::contract"
  | defined .. => "bmb_syntax::parser::items"
  | started .. | finished .. | failed .. | resumed .. => "bmb_syntax::parser"

/-- The event in words, with places in the text of `index`. -/
def message (index : LineIndex) : Event → String
  | tokenized bytes tokens => s!"tokenized {bytes} bytes into {tokens} tokens"
  | started file tokens none => s!"parsing {file} ({tokens} tokens)"
  | started file tokens (some mode) => s!"parsing {file} ({tokens} tokens, {mode.label})"
  | finished file items => s!"parsed {file}: {items} items"
  | bound name isMutable => s!"let {name} (mut: {isMutable})"
  | refined base constraints => s!"refined {base.text} with {constraints} constraints"
  | conditioned conditions => s!"where block with {conditions} conditions"
  | defined name start =>
    let name := name.getD Keyword.use.text
    s!"parsed item {name} at {(index.position start).text}"
  | failed start error => s!"item at token {start} failed: {(error.diagnostic index).text}"
  | resumed start => s!"recovered at token {start}"

/-- The event as one line of a log. -/
def line (index : LineIndex) (event : Event) : String :=
  event.level.text ++ " " ++ event.target ++ ": " ++ event.message index

/-- The lines of a log that adds as much detail as `level`. -/
def lines (level : EventLevel) (index : LineIndex) (events : List Event) : List String :=
  (events.filter fun event => level.includes event.level).map (line index)

end Event

end ContractSyntax
