/-
**Runs over moved tokens.**

`Moves move moved parser` says that the runs of one parser from moved cursors are the moved runs of
another. Parsers never compute with offsets except by merging spans, so this relation passes along
the ways in which parsers are put together.

* `Moves.bind`: parsers in a row;
* `Moves.chain`, `Moves.sequence`, `Moves.opened`, `Moves.untilEnd`: repetitions.
-/

import ContractSyntax.Grammar.Program
import ContractSyntax.Proofs.Relocation.Item
import ContractSyntax.Proofs.Unfolding

namespace ContractSyntax

/-! ### Errors, events and cursors -/

/-- The error with its span moved. -/
def SyntaxError.relocate (move : Relocation) (error : SyntaxError) : SyntaxError :=
  { error with span := error.span.relocate move }

/-- The event with its places moved. -/
def Event.relocate (move : Relocation) : Event → Event
  | defined name start => defined name (move.offset start)
  | failed index error => failed index (error.relocate move)
  | event => event

namespace Cursor

variable {move : Relocation} {cursor : Cursor}

/-- The cursor with all places moved. -/
def relocate (move : Relocation) (cursor : Cursor) : Cursor where
  remaining := ContractSyntax.relocate move cursor.remaining
  index := cursor.index
  lastStop := move.offset cursor.lastStop
  endOffset := move.offset cursor.endOffset
  events := cursor.events.map (Event.relocate move)

@[simp] theorem current?_relocate : (cursor.relocate move).current? = cursor.current? := by
  unfold current? relocate
  cases cursor.remaining <;> rfl

@[simp] theorem second?_relocate : (cursor.relocate move).second? = cursor.second? := by
  unfold second? relocate
  match cursor.remaining with
  | [] | [_] | _ :: _ :: _ => rfl

@[simp] theorem span_relocate : (cursor.relocate move).span = cursor.span.relocate move := by
  unfold span relocate
  cases cursor.remaining <;> rfl

@[simp] theorem advance_relocate : (cursor.relocate move).advance = cursor.advance.relocate move := by
  cases remaining : cursor.remaining with
  | nil => simp only [advance, relocate, remaining, relocate_nil]
  | cons token rest => simp only [advance, relocate, remaining, relocate_cons]; rfl

@[simp] theorem error_relocate (cause : Cause) :
    (cursor.relocate move).error cause = (cursor.error cause).relocate move := by
  simp only [error, current?_relocate, span_relocate, SyntaxError.relocate]

end Cursor

/-- The outcome with all places moved. -/
def Outcome.relocate {α : Type} [Relocate α] (move : Relocation) : Outcome α → Outcome α
  | done value height cursor => done (ContractSyntax.relocate move value) height (cursor.relocate move)
  | failed error cursor => failed (error.relocate move) (cursor.relocate move)

namespace Parser

variable {α β : Type} [Relocate α] [Relocate β]

/-- The entry with its spans moved. -/
def Entry.relocate (move : Relocation) : Entry α β → Entry α β
  | item value => item (ContractSyntax.relocate move value)
  | last result => last (ContractSyntax.relocate move result)

instance : Relocate (Entry α β) := ⟨Entry.relocate⟩

/-- The runs of a parser from moved cursors are the moved runs of another. -/
def Moves (move : Relocation) (moved parser : Parser α) : Prop :=
  ∀ room cursor, moved.run room (cursor.relocate move) = (parser.run room cursor).relocate move

namespace Moves

variable {move : Relocation}

/-! ### Parsers in a row -/

protected theorem pure {value other : α} (same : other = relocate move value) :
    Moves move (pure other) (pure value) := by
  subst same
  exact fun _ _ => rfl

theorem bind {moved parser : Parser α} {next' next : α → Parser β} (first : Moves move moved parser)
    (second : ∀ value, Moves move (next' (relocate move value)) (next value)) :
    Moves move (moved >>= next') (parser >>= next) := by
  intro room cursor
  rw [run_bind, run_bind, first room cursor]
  cases parser.run room cursor with
  | failed error after => rfl
  | done value height after =>
    simp only [Outcome.relocate, second value room after]
    cases (next value).run room after <;> rfl

/-- What the parsers find before they go on with the tokens that remain. -/
theorem silent {γ : Type} {look : Parser γ} {found : Cursor → γ} {change : γ → γ}
    {next' next : γ → Parser β}
    (ran : ∀ room cursor, look.run room cursor = .done (found cursor) 0 cursor)
    (changes : ∀ cursor, found (cursor.relocate move) = change (found cursor))
    (continued : ∀ value, Moves move (next' (change value)) (next value)) :
    Moves move (look >>= next') (look >>= next) := by
  intro room cursor
  rw [run_bind, run_bind, ran, ran]
  simp only [changes, continued (found cursor) room cursor]
  cases (next (found cursor)).run room cursor <;> rfl

theorem current {next' next : Option Token → Parser β}
    (continued : ∀ found, Moves move (next' found) (next found)) :
    Moves move (Parser.current >>= next') (Parser.current >>= next) :=
  silent (fun _ _ => rfl) (fun _ => Cursor.current?_relocate) continued

theorem second {next' next : Option Token → Parser β}
    (continued : ∀ found, Moves move (next' found) (next found)) :
    Moves move (Parser.second >>= next') (Parser.second >>= next) :=
  silent (fun _ _ => rfl) (fun _ => Cursor.second?_relocate) continued

theorem here {next' next : Span → Parser β}
    (continued : ∀ span, Moves move (next' (span.relocate move)) (next span)) :
    Moves move (Parser.here >>= next') (Parser.here >>= next) :=
  silent (fun _ _ => rfl) (fun _ => Cursor.span_relocate) continued

theorem lastStop {next' next : Nat → Parser β}
    (continued : ∀ stop, Moves move (next' (move.offset stop)) (next stop)) :
    Moves move (Parser.lastStop >>= next') (Parser.lastStop >>= next) :=
  silent (fun _ _ => rfl) (fun _ => rfl) continued

theorem note {event other : Event} {next' next : Unit → Parser β}
    (same : other = event.relocate move) (continued : Moves move (next' ()) (next ())) :
    Moves move (Parser.note other >>= next') (Parser.note event >>= next) := by
  subst same
  have noted : Moves move (Parser.note (event.relocate move)) (Parser.note event) := fun _ _ => rfl
  exact bind noted fun _ => continued

theorem passed : Moves move Parser.pass Parser.pass := by
  intro room cursor
  simp only [Parser.pass, Cursor.span_relocate, Cursor.advance_relocate]
  rfl

protected theorem fail (cause : Cause) :
    Moves move (Parser.fail cause : Parser α) (Parser.fail cause) := by
  intro room cursor
  simp only [Parser.fail, failAt, Cursor.error_relocate]
  rfl

theorem failWith {error other : SyntaxError} (same : other = error.relocate move) :
    Moves move (Parser.failWith other : Parser α) (Parser.failWith error) := by
  subst same
  exact fun _ _ => rfl

theorem accept (token : Token) : Moves move (Parser.accept token) (Parser.accept token) := by
  refine current fun found => ?_
  split
  · exact bind passed fun _ => .pure rfl
  · exact .pure rfl

theorem expect (token : Token) : Moves move (Parser.expect token) (Parser.expect token) := by
  refine current fun found => ?_
  split
  · exact passed
  · exact .fail _

theorem name (role : NameRole) : Moves move (Parser.name role) (Parser.name role) := by
  refine current fun found => ?_
  split
  · exact bind passed fun _ => .pure rfl
  · exact .fail _

theorem nameBefore (token : Token) :
    Moves move (Parser.nameBefore token) (Parser.nameBefore token) := by
  refine current fun found => ?_
  split
  · refine second fun following => ?_
    split
    · exact bind passed fun _ => bind passed fun _ => .pure rfl
    · exact .pure rfl
  · exact .pure rfl

/-! ### Nesting and repetition -/

theorem nested {moved parser : Parser α} (moves : Moves move moved parser) :
    Moves move (Parser.nested moved) (Parser.nested parser) := by
  intro room cursor
  cases room with
  | zero =>
    simp only [Parser.nested, Cursor.error_relocate]
    rfl
  | succ room =>
    simp only [Parser.nested, moves room cursor]
    cases parser.run room cursor <;> rfl

/-- How the links of two chains belong together. -/
structure Linked (move : Relocation) (links' links : Token → Option (α → Parser α)) : Prop where
  none : ∀ token, links token = none → links' token = none
  some : ∀ token link, links token = some link → ∃ link', links' token = some link' ∧
    ∀ value, Moves move (link' (relocate move value)) (link value)

theorem Linked.bind_none {links' links : Token → Option (α → Parser α)}
    (linked : Linked move links' links) {found : Option Token} (ended : found.bind links = .none) :
    found.bind links' = .none := by
  cases found with
  | none => rfl
  | some token => exact linked.none token ended

theorem Linked.bind_some {links' links : Token → Option (α → Parser α)}
    (linked : Linked move links' links) {found : Option Token} {link : α → Parser α}
    (follows : found.bind links = .some link) :
    ∃ link', found.bind links' = .some link' ∧
      ∀ value, Moves move (link' (relocate move value)) (link value) := by
  cases found with
  | none => cases follows
  | some token => exact linked.some token link follows

theorem chainFrom {links' links : Token → Option (α → Parser α)}
    (linked : Linked move links' links) (room : Nat) (value : α) (height : Nat) (cursor : Cursor) :
    Parser.chainFrom links' room (relocate move value) height (cursor.relocate move) =
      (Parser.chainFrom links room value height cursor).relocate move := by
  fun_induction Parser.chainFrom links room value height cursor with
  | case1 value height cursor ended =>
    rw [Parser.chainFrom, Cursor.current?_relocate, linked.bind_none ended]
    rfl
  | case2 value height cursor link found fits next more after ran continued =>
    obtain ⟨link', found', moves⟩ := linked.bind_some found
    rw [Parser.chainFrom, Cursor.current?_relocate, found']
    simp only [if_pos fits, moves value (room - (height + 1)) cursor, ran]
    exact continued
  | case3 value height cursor link found fits error after ran =>
    obtain ⟨link', found', moves⟩ := linked.bind_some found
    rw [Parser.chainFrom, Cursor.current?_relocate, found']
    simp only [if_pos fits, moves value (room - (height + 1)) cursor, ran]
    rfl
  | case4 value height cursor link found full =>
    obtain ⟨link', found', moves⟩ := linked.bind_some found
    rw [Parser.chainFrom, Cursor.current?_relocate, found']
    simp only [if_neg full, Cursor.error_relocate]
    rfl

theorem chain {moved first : Parser α} {links' links : Token → Option (α → Parser α)}
    (operand : Moves move moved first) (linked : Linked move links' links) :
    Moves move (Parser.chain moved links') (Parser.chain first links) := by
  intro room cursor
  simp only [Parser.chain, operand room cursor]
  cases first.run room cursor with
  | failed error after => rfl
  | done value height after => exact chainFrom linked room value height after

theorem relocate_reverse (items : List α) :
    relocate move items.reverse = (relocate move items).reverse :=
  List.map_reverse

theorem relocate_append (first second : List α) :
    relocate move (first ++ second) = relocate move first ++ relocate move second :=
  List.map_append

theorem sequenceFrom {separator : Token} {moved entry : Parser (Entry α β)}
    (moves : Moves move moved entry) (room : Nat) (items : List α) (height : Nat)
    (cursor : Cursor) :
    Parser.sequenceFrom separator moved room (relocate move items) height (cursor.relocate move) =
      (Parser.sequenceFrom separator entry room items height cursor).relocate move := by
  fun_induction Parser.sequenceFrom separator entry room items height cursor with
  | case1 items height cursor error after ran =>
    rw [sequenceFrom_step, moves room cursor, ran]
    rfl
  | case2 items height cursor result more after ran =>
    rw [sequenceFrom_step, moves room cursor, ran, ← relocate_reverse]
    rfl
  | case3 items height cursor value more after ran separated continued =>
    rw [sequenceFrom_step, moves room cursor, ran]
    show (if (after.relocate move).current? = _ then _ else _) = _
    rw [Cursor.current?_relocate, if_pos separated, Cursor.advance_relocate]
    exact continued
  | case4 items height cursor value more after ran other =>
    rw [sequenceFrom_step, moves room cursor, ran]
    show (if (after.relocate move).current? = _ then _ else _) = _
    rw [Cursor.current?_relocate, if_neg other, Cursor.error_relocate]
    rfl

theorem sequence {separator : Token} {moved entry : Parser (Entry α β)}
    (moves : Moves move moved entry) :
    Moves move (Parser.sequence separator moved) (Parser.sequence separator entry) :=
  fun room cursor => sequenceFrom moves room [] 0 cursor

theorem list (close : Symbol) {moved item : Parser α} (moves : Moves move moved item) :
    Moves move (Parser.list close moved) (Parser.list close item) := by
  have entry : Moves move (listEntry close moved) (listEntry close item) := by
    refine bind (accept _) fun found => ?_
    rcases found with _ | stop
    · refine bind moves fun value => current fun found => ?_
      split
      · exact .pure rfl
      · refine bind (accept _) fun found => ?_
        rcases found with _ | stop
        · exact .fail _
        · exact .pure rfl
    · exact .pure rfl
  refine bind (sequence entry) fun found => .pure ?_
  obtain ⟨items, last, stop⟩ := found
  cases last with
  | none => exact congrArg (·, stop.relocate move) (relocate_append items []).symm
  | some last => exact congrArg (·, stop.relocate move) (relocate_append items [last]).symm

theorem openedFrom {opener : Token} {moved item : Span → Parser α}
    (moves : ∀ span, Moves move (moved (span.relocate move)) (item span)) (room : Nat)
    (items : List α) (height : Nat) (cursor : Cursor) :
    Parser.openedFrom opener moved room (relocate move items) height (cursor.relocate move) =
      (Parser.openedFrom opener item room items height cursor).relocate move := by
  fun_induction Parser.openedFrom opener item room items height cursor with
  | case1 items height cursor opened error after ran =>
    rw [openedFrom_step, Cursor.current?_relocate, if_pos opened, Cursor.span_relocate,
      Cursor.advance_relocate, moves cursor.span room cursor.advance, ran]
    rfl
  | case2 items height cursor opened value more after ran continued =>
    rw [openedFrom_step, Cursor.current?_relocate, if_pos opened, Cursor.span_relocate,
      Cursor.advance_relocate, moves cursor.span room cursor.advance, ran]
    exact continued
  | case3 items height cursor other =>
    rw [openedFrom_step, Cursor.current?_relocate, if_neg other, ← relocate_reverse]
    rfl

theorem opened {opener : Token} {moved item : Span → Parser α}
    (moves : ∀ span, Moves move (moved (span.relocate move)) (item span)) :
    Moves move (Parser.opened opener moved) (Parser.opened opener item) :=
  fun room cursor => openedFrom moves room [] 0 cursor

theorem untilEndFrom {item : Parser α} {advances : item.Advances} (moves : Moves move item item)
    (room : Nat) (items : List α) (height : Nat) (cursor : Cursor) :
    Parser.untilEndFrom item advances room (relocate move items) height (cursor.relocate move) =
      (Parser.untilEndFrom item advances room items height cursor).relocate move := by
  fun_induction Parser.untilEndFrom item advances room items height cursor with
  | case1 items height cursor ended =>
    have none : (cursor.relocate move).remaining = [] := congrArg (relocate move) ended
    rw [untilEndFrom_step, none, ← relocate_reverse]
    rfl
  | case2 items height cursor first rest remaining error after ran =>
    have some : (cursor.relocate move).remaining = relocate move first :: relocate move rest :=
      congrArg (relocate move) remaining
    rw [untilEndFrom_step, some, moves room cursor, ran]
    rfl
  | case3 items height cursor first rest remaining value more after ran continued =>
    have some : (cursor.relocate move).remaining = relocate move first :: relocate move rest :=
      congrArg (relocate move) remaining
    rw [untilEndFrom_step, some, moves room cursor, ran]
    exact continued

theorem untilEnd {item : Parser α} {advances : item.Advances} (moves : Moves move item item) :
    Moves move (Parser.untilEnd item advances) (Parser.untilEnd item advances) :=
  fun room cursor => untilEndFrom moves room [] 0 cursor

end Moves

end Parser

end ContractSyntax
