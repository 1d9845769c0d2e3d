/-
**Cursors: places in a list of tokens.**

A cursor holds the tokens still to come, how many have been passed and where the last of them ended,
and the events noted on the way. It only ever moves on: `Reaches` says that one cursor is reached
from another by passing tokens.

* `Cursor.Reaches.refl`, `Cursor.Reaches.trans`: reaching is a preorder;
* `Cursor.Reaches.length_le`: no more tokens remain than before.
-/

import ContractSyntax.Parser.Event

namespace ContractSyntax

/-- A place in a list of tokens. -/
structure Cursor where
  remaining : List (Spanned Token)
  /-- How many tokens have been passed. -/
  index : Nat
  /-- Where the token passed last ended, zero before the first. -/
  lastStop : Nat
  /-- Where the input ends, for errors found there. -/
  endOffset : Nat
  /-- What has been noted, latest first. -/
  events : List Event

namespace Cursor

/-- The place before all tokens of a text that ends at `endOffset`. -/
def start (endOffset : Nat) (tokens : List (Spanned Token)) : Cursor :=
  ⟨tokens, 0, 0, endOffset, []⟩

/-- The token at the cursor. -/
def current? (cursor : Cursor) : Option Token := cursor.remaining.head?.map (·.node)

/-- The token after the one at the cursor. -/
def second? (cursor : Cursor) : Option Token := cursor.remaining.tail.head?.map (·.node)

/-- The span of the token at the cursor, or the empty one at the end of the input. -/
def span (cursor : Cursor) : Span :=
  match cursor.remaining with
  | [] => .point cursor.endOffset
  | token :: _ => token.span

/-- The place after the token at the cursor; the end of the input has none after it. -/
def advance (cursor : Cursor) : Cursor :=
  match cursor.remaining with
  | [] => cursor
  | token :: rest =>
    { cursor with remaining := rest, index := cursor.index + 1, lastStop := token.span.stop }

/-- The same place with one event more. -/
def note (cursor : Cursor) (event : Event) : Cursor :=
  { cursor with events := event :: cursor.events }

/-- The error that the token at the cursor does not fit. -/
def error (cursor : Cursor) (cause : Cause) : SyntaxError := ⟨cause, cursor.current?, cursor.span⟩

/-! ### Moving on -/

/-- Where the last of some tokens ends, which is `stop` if there are none. -/
def stopAfter (stop : Nat) (tokens : List (Spanned Token)) : Nat :=
  tokens.foldl (fun _ token => token.span.stop) stop

theorem stopAfter_append (stop : Nat) (first second : List (Spanned Token)) :
    stopAfter stop (first ++ second) = stopAfter (stopAfter stop first) second :=
  List.foldl_append

/-- Where tokens end does not depend on what stands before them. -/
theorem stopAfter_eq {tokens : List (Spanned Token)} (some : tokens ≠ []) (first second : Nat) :
    stopAfter first tokens = stopAfter second tokens := by
  obtain ⟨place, rest, rfl⟩ := List.exists_cons_of_ne_nil some
  rfl

/-- `later` is reached from `earlier` by passing the tokens of a list. -/
structure Passes (tokens : List (Spanned Token)) (earlier later : Cursor) : Prop where
  remaining : earlier.remaining = tokens ++ later.remaining
  index : later.index = earlier.index + tokens.length
  lastStop : later.lastStop = stopAfter earlier.lastStop tokens
  endOffset : later.endOffset = earlier.endOffset

/-- `later` is reached from `earlier` by passing some tokens, or none. -/
def Reaches (earlier later : Cursor) : Prop := ∃ tokens, Passes tokens earlier later

theorem Passes.trans {first second : List (Spanned Token)} {earlier middle later : Cursor}
    (before : Passes first earlier middle) (after : Passes second middle later) :
    Passes (first ++ second) earlier later where
  remaining := by rw [before.remaining, after.remaining, List.append_assoc]
  index := by rw [after.index, before.index, List.length_append, Nat.add_assoc]
  lastStop := by rw [after.lastStop, before.lastStop, stopAfter_append]
  endOffset := by rw [after.endOffset, before.endOffset]

theorem passes_nil (cursor : Cursor) : Passes [] cursor cursor := ⟨rfl, rfl, rfl, rfl⟩

namespace Reaches

@[refl] theorem refl (cursor : Cursor) : cursor.Reaches cursor := ⟨[], passes_nil cursor⟩

theorem trans {earlier middle later : Cursor} (before : earlier.Reaches middle)
    (after : middle.Reaches later) : earlier.Reaches later :=
  ⟨_, before.choose_spec.trans after.choose_spec⟩

theorem length_le {earlier later : Cursor} (reached : earlier.Reaches later) :
    later.remaining.length ≤ earlier.remaining.length := by
  obtain ⟨tokens, passed⟩ := reached
  rw [passed.remaining, List.length_append]
  exact Nat.le_add_left _ _

end Reaches

theorem advance_of_cons {cursor : Cursor} {token : Spanned Token} {rest : List (Spanned Token)}
    (remaining : cursor.remaining = token :: rest) :
    cursor.advance =
      { cursor with
        remaining := rest
        index := cursor.index + 1
        lastStop := token.span.stop } := by
  simp only [advance, remaining]

theorem reaches_advance (cursor : Cursor) : cursor.Reaches cursor.advance := by
  cases remaining : cursor.remaining with
  | nil =>
    simp only [advance, remaining]
    exact Reaches.refl cursor
  | cons token rest =>
    rw [advance_of_cons remaining]
    exact ⟨[token], by simpa using remaining, rfl, rfl, rfl⟩

theorem reaches_note (cursor : Cursor) (event : Event) : cursor.Reaches (cursor.note event) :=
  ⟨[], rfl, rfl, rfl, rfl⟩

/-- Where a token stands at the cursor, going past it leaves fewer. -/
theorem advance_lt {cursor : Cursor} {token : Token} (current : cursor.current? = some token) :
    cursor.advance.remaining.length < cursor.remaining.length := by
  cases remaining : cursor.remaining with
  | nil => simp [current?, remaining] at current
  | cons first rest =>
    rw [advance_of_cons remaining]
    exact Nat.lt_succ_self _

end Cursor

end ContractSyntax
