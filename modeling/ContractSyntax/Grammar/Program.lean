/-
**Reading programs, with or without recovery.**

A program is read either up to its first error, or with recovery: a definition that cannot be parsed
is skipped up to the next token that starts one, and parsing goes on until the allowed number of
errors is reached.

* `resume_lt`: recovery passes a token at least, so that the reading ends.
-/

import ContractSyntax.Grammar.Item
import ContractSyntax.Parser.Session

namespace ContractSyntax

/-- How errors in a program are dealt with. -/
structure ParseOptions where
  errorMode : ErrorMode
  /-- How many errors to collect at most. -/
  maxErrors : Nat
  deriving DecidableEq, Inhabited, Repr

namespace ParseOptions

/-- How many errors are collected unless it is stated otherwise. -/
def usualMaxErrors : Nat := 20

/-- Stop at the first error. -/
def failFast : ParseOptions := ⟨.failFast, usualMaxErrors⟩

/-- Collect errors. -/
def collect : ParseOptions := ⟨.collect, usualMaxErrors⟩

/-- Another number of errors to collect, which is one at least. -/
def withMaxErrors (options : ParseOptions) (maxErrors : Nat) : ParseOptions :=
  { options with maxErrors := max maxErrors 1 }

/-- The number of errors after which parsing stops. -/
def errorLimit (options : ParseOptions) : Nat :=
  match options.errorMode with
  | .failFast => 1
  | .collect => max options.maxErrors 1

end ParseOptions

namespace Parser

/-- The end of the input. -/
def endOfInput : Parser Unit := do
  match ← current with
  | none => return ()
  | some _ => fail (.unexpected [.endOfInput])

/-- A program, up to its first error. -/
def program : Parser Program := do
  return ⟨← untilEnd item item_advances⟩

/-- Runs a parser from the outermost level. -/
def start {α : Type} (parser : Parser α) (cursor : Cursor) : Except SyntaxError α × Cursor :=
  let (result, session) := (Session.fresh cursor).read parser
  (result, session.cursor)

/-- A run from the outermost level has all the room there is. -/
theorem start_eq {α : Type} (parser : Parser α) (cursor : Cursor) :
    parser.start cursor =
      match parser.run nestingLimit cursor with
      | .done value _ after => (.ok value, after)
      | .failed error after => (.error error, after) := by
  show (((Session.fresh cursor).read parser).1, ((Session.fresh cursor).read parser).2.cursor) = _
  rcases (Session.fresh cursor).read_eq parser with
    ⟨_, _, _, ran, result, stopped, _⟩ | ⟨_, _, ran, result, stopped, _⟩
  · rw [result, stopped, show parser.run nestingLimit cursor = _ from ran]
  · rw [result, stopped, show parser.run nestingLimit cursor = _ from ran]

end Parser

/-! ### Recovery -/

/-- Whether a token stands only at the start of a definition. -/
def startsItem : Token → Bool
  | .symbol .at_ => true
  | .keyword .fn | .keyword .struct | .keyword .enum | .keyword .use | .keyword .pub => true
  | _ => false

/-- The next place at which a token satisfies `stops`. -/
def Cursor.seek (stops : Token → Bool) (cursor : Cursor) : Cursor :=
  match _current : cursor.current? with
  | none => cursor
  | some token => if stops token then cursor else seek stops cursor.advance
termination_by cursor.remaining.length
decreasing_by exact Cursor.advance_lt _current

theorem Cursor.seek_step (stops : Token → Bool) (cursor : Cursor) :
    cursor.seek stops =
      match cursor.current? with
      | none => cursor
      | some token => if stops token then cursor else cursor.advance.seek stops := by
  rw [seek]
  split
  · next ended => rw [ended]
  · next found => rw [found]

theorem Cursor.reaches_seek (stops : Token → Bool) (cursor : Cursor) :
    cursor.Reaches (cursor.seek stops) := by
  fun_induction Cursor.seek stops cursor with
  | case1 => exact .refl _
  | case2 => exact .refl _
  | case3 cursor token current moves continued => exact cursor.reaches_advance.trans continued

/-- Where to go on after a definition that starts at one cursor and fails at another. A definition
that fails at its first token loses that token. -/
def resume (start failed : Cursor) : Cursor :=
  let after := if failed.index = start.index then failed.advance else failed
  let found := after.seek startsItem
  found.note (.resumed found.index)

theorem reaches_resume (start failed : Cursor) : failed.Reaches (resume start failed) := by
  unfold resume
  dsimp only
  split
  · exact failed.reaches_advance.trans ((Cursor.reaches_seek _ _).trans (Cursor.reaches_note _ _))
  · exact (Cursor.reaches_seek _ _).trans (Cursor.reaches_note _ _)

theorem resume_lt {start failed : Cursor} (reached : start.Reaches failed)
    (more : start.remaining ≠ []) :
    (resume start failed).remaining.length < start.remaining.length := by
  obtain ⟨tokens, passed⟩ := reached
  have length := congrArg List.length passed.remaining
  rw [List.length_append] at length
  have sought (cursor : Cursor) :
      ((cursor.seek startsItem).note (.resumed (cursor.seek startsItem).index)).remaining.length ≤
        cursor.remaining.length := (cursor.reaches_seek startsItem).length_le
  unfold resume
  dsimp only
  split
  · next stuck =>
    have none : tokens = [] := by
      have := passed.index
      exact List.length_eq_zero_iff.mp (by omega)
    have same : start.remaining = failed.remaining := by simpa [none] using passed.remaining
    refine Nat.lt_of_le_of_lt (sought failed.advance) ?_
    rw [same] at more ⊢
    cases remaining : failed.remaining with
    | nil => exact absurd remaining more
    | cons token rest =>
      rw [Cursor.advance_of_cons remaining]
      exact Nat.lt_succ_self _
  · next moved =>
    refine Nat.lt_of_le_of_lt (sought failed) ?_
    have := passed.index
    omega

/-- What reading a program with recovery comes to. -/
structure Collected where
  items : List Item
  errors : List SyntaxError
  /-- The session after the reading. -/
  session : Session

/-- Goes on reading after the first definitions and errors, latest first, with `allowed` errors to
go, of which there is always one. -/
def collectFrom (allowed : Nat) (items : List Item) (errors : List SyntaxError)
    (session : Session) : Collected :=
  match _more : session.cursor.remaining with
  | [] => ⟨items.reverse, errors.reverse, session⟩
  | _ :: _ =>
    match _ran : session.read Parser.item with
    | (.ok item, after) => collectFrom allowed (item :: items) errors after
    | (.error error, after) =>
      let noted := after.cursor.note (.failed session.cursor.index error)
      if allowed ≤ 1 then ⟨items.reverse, (error :: errors).reverse, ⟨noted, after.nesting⟩⟩
      else
        collectFrom (allowed - 1) items (error :: errors)
          ⟨resume session.cursor noted, after.nesting⟩
termination_by session.cursor.remaining.length
decreasing_by
  · exact Session.read_lt Parser.item_advances _ran
  · refine resume_lt ?_ (by simp [_more])
    have reached := session.reaches_read Parser.item
    rw [_ran] at reached
    exact reached.trans (after.cursor.reaches_note _)

theorem collectFrom_step (allowed : Nat) (items : List Item) (errors : List SyntaxError)
    (session : Session) :
    collectFrom allowed items errors session =
      match session.cursor.remaining with
      | [] => ⟨items.reverse, errors.reverse, session⟩
      | _ :: _ =>
        match session.read Parser.item with
        | (.ok item, after) => collectFrom allowed (item :: items) errors after
        | (.error error, after) =>
          let noted := after.cursor.note (.failed session.cursor.index error)
          if allowed ≤ 1 then ⟨items.reverse, (error :: errors).reverse, ⟨noted, after.nesting⟩⟩
          else
            collectFrom (allowed - 1) items (error :: errors)
              ⟨resume session.cursor noted, after.nesting⟩ := by
  rw [collectFrom]
  split
  · next ended => simp only [ended]
  · next more =>
    split
    · next ran => simp only [more, ran]
    · next ran => simp only [more, ran]

/-- The program, or else the errors in it. -/
def Collected.result (collected : Collected) : Except (List SyntaxError) Program :=
  if collected.errors.isEmpty then .ok ⟨collected.items⟩ else .error collected.errors

/-- Where the reading stopped. -/
def Collected.cursor (collected : Collected) : Cursor := collected.session.cursor

/-- Reads the rest of a program with recovery. -/
def Session.collect (options : ParseOptions) (session : Session) : Collected :=
  collectFrom options.errorLimit [] [] session

/-- Reads the rest of a program with recovery, from the outermost level. -/
def collect (options : ParseOptions) (cursor : Cursor) : Collected :=
  (Session.fresh cursor).collect options

end ContractSyntax
