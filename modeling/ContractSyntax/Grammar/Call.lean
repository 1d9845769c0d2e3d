/-
**What a session can be asked to read.**

Each call reads one phrase or all that is left, and the next goes on from where it stopped, whether it
succeeded or not.
-/

import ContractSyntax.Grammar.Program

namespace ContractSyntax

/-- What a session can be asked to read. -/
inductive Call where
  | expression | type | pattern | contract | item
  /-- All definitions that are left, up to the first error. -/
  | program
  /-- All definitions that are left, with recovery. -/
  | collection (options : ParseOptions)

namespace Call

/-- What a call that succeeds gives. -/
def Tree : Call → Type
  | expression => Spanned Expr
  | type => Spanned Ty
  | pattern => Spanned Pattern
  | contract => Option Contract
  | item => Item
  | program | collection _ => Program

/-- What a call that fails gives. -/
def Failure : Call → Type
  | collection _ => List SyntaxError
  | _ => SyntaxError

end Call

namespace Session

/-- Answers a call, and goes on from where the reading has stopped. -/
def call : (call : Call) → Session → Except call.Failure call.Tree × Session
  | .expression, session => session.read Parser.expression
  | .type, session => session.read Parser.type
  | .pattern, session => session.read Parser.pattern
  | .contract, session => session.read Parser.contract?
  | .item, session => session.read Parser.item
  | .program, session => session.read Parser.program
  | .collection options, session =>
    let collected := session.collect options
    (collected.result, collected.session)

/-- The session after some calls. -/
def after (session : Session) (calls : List Call) : Session :=
  calls.foldl (fun session call => (session.call call).2) session

end Session

end ContractSyntax
