/-
**Chains and lists that have to succeed.**

A sequence unfolds into its first entry and the sequence after it, so what it takes follows part by
part. A chain does not unfold like this, since the room of a link depends on all links before it;
its runs are compared with the point at which the links taken so far have been read.

* `Chaining.link`, `Chaining.takes`: a chain takes one link more, and ends where none follows;
* `Takes.list`, `Takes.opened`, `Takes.untilEnd`: what these repetitions take.
-/

import ContractSyntax.Proofs.Derivation.Opening
import ContractSyntax.Proofs.Derivation.Repetition
import ContractSyntax.Proofs.Derivation.Taking
import ContractSyntax.Proofs.Unfolding

namespace ContractSyntax

namespace Parser

variable {α β : Type}

/-! ### Chains -/

/-- Every run of a chain from a cursor before the tokens and the rest reads these tokens as the
value, if there is room, and then goes on with the chain. -/
def Chaining (first : Parser α) (link? : Token → Option (α → Parser α)) (tokens rest : Tokens)
    (value : α) (height room : Nat) : Prop :=
  ∀ cursor : Cursor, cursor.remaining = tokens ++ rest →
    (height ≤ room ∧ ∃ after, Cursor.Passes tokens cursor after ∧
      (chain first link?).run room cursor = chainFrom link? room value height after) ∨
    (room < height ∧ ((chain first link?).run room cursor).IsTooDeep)

namespace Chaining

variable {first : Parser α} {link? : Token → Option (α → Parser α)} {tokens rest : Tokens}
  {value result : α} {height depth room : Nat}

/-- A chain starts with its operand. -/
theorem operand (taken : first.Takes tokens rest value height room) :
    Chaining first link? tokens rest value height room := by
  intro cursor remaining
  simp only [chain]
  rcases taken cursor remaining with ⟨fits, after, passes, ran⟩ | ⟨large, error, after, ran, cause⟩
  · exact .inl ⟨fits, after, passes, by rw [ran]⟩
  · exact .inr ⟨large, error, after, by rw [ran], cause⟩

/-- One link more, which runs in the room above all that was read before it. -/
theorem link {token : Spanned Token} {others : Tokens} {follow : α → Parser α}
    (chained : Chaining first link? tokens (token :: others ++ rest) value height room)
    (found : link? token.node = some follow)
    (taken : height < room →
      (follow value).Takes (token :: others) rest result depth (room - (height + 1))) :
    Chaining first link? (tokens ++ token :: others) rest result (height + 1 + depth) room := by
  intro cursor remaining
  rw [List.append_assoc] at remaining
  rcases chained cursor remaining with ⟨fits, middle, passes, ran⟩ | ⟨large, deep⟩
  · have left := passes.remaining_eq remaining
    have current : middle.current?.bind link? = some follow := by
      rw [Cursor.current?_of_remaining left]
      exact found
    rw [ran, chainFrom, current]
    by_cases more : height < room
    · simp only [if_pos more]
      rcases taken more middle left with ⟨fits', after, later, ran'⟩ | ⟨large, error, after, ran', cause⟩
      · refine .inl ⟨by omega, after, passes.trans later, ?_⟩
        simp only [ran']
      · refine .inr ⟨by omega, error, after, ?_, cause⟩
        simp only [ran']
    · simp only [if_neg more]
      exact .inr ⟨by omega, middle.error .tooDeep, middle, rfl, rfl⟩
  · exact .inr ⟨by omega, deep⟩

/-- A chain ends where no link follows. -/
theorem takes (chained : Chaining first link? tokens rest value height room)
    (ended : (rest.head?.map Spanned.node).bind link? = none) :
    (chain first link?).Takes tokens rest value height room := by
  intro cursor remaining
  rcases chained cursor remaining with ⟨fits, after, passes, ran⟩ | long
  · have left := passes.remaining_eq remaining
    have current : after.current?.bind link? = none := by
      rw [Cursor.current?_of_remaining left]
      exact ended
    refine .inl ⟨fits, after, passes, ?_⟩
    rw [ran, chainFrom, current]
  · exact .inr long

end Chaining

/-! ### Sequences -/

namespace Takes

variable {tokens rest : Tokens} {height room : Nat}

/-- A sequence ends with an entry that ends it. -/
theorem sequenceLast {separator : Token} {entry : Parser (Entry α β)} {result : β}
    (taken : entry.Takes tokens rest (.last result) height room) :
    (sequence separator entry).Takes tokens rest ([], result) height room := by
  refine ofRun (run_sequence _ _) ?_
  exact last taken Takes.pure

/-- A sequence takes an item and the separator, and is then the sequence after it. -/
theorem sequenceItem {separator : Token} {entry : Parser (Entry α β)} {span : Span}
    {others : Tokens} {value : α} {values : List α} {result : β} {depth : Nat}
    (taken : entry.Takes tokens (⟨separator, span⟩ :: others ++ rest) (.item value) height room)
    (continued : (sequence separator entry).Takes others rest (values, result) depth room) :
    (sequence separator entry).Takes (tokens ++ ⟨separator, span⟩ :: others) rest
      (value :: values, result) (max height depth) room := by
  refine ofRun (run_sequence _ _) ?_
  exact bind taken (expect (last continued Takes.pure))

/-! ### Comma lists -/

/-- An item takes its part of a list, which does not start like the end of the list. -/
structure TakesPart (close : Symbol) (item : Parser α) (room : Nat) (part : Part α) : Prop where
  taken : ∀ rest, Listed close rest → item.Takes part.tokens rest part.value part.height room
  starts : ∀ rest, (part.tokens ++ rest).head?.map Spanned.node ≠ some (.symbol close)

theorem listItem {close : Symbol} {item : Parser α} {part : Part α} (comma : Span)
    (takes : TakesPart close item room part) :
    (listEntry close item).Takes part.tokens (⟨.symbol .comma, comma⟩ :: rest) (.item part.value)
      part.height room := by
  refine acceptNone (takes.starts _) (last (takes.taken _ (.inl rfl)) ?_)
  exact current Takes.pure

theorem listLast {close : Symbol} {item : Parser α} {part : Part α} {stop : Span}
    (other : close ≠ .comma) (takes : TakesPart close item room part) :
    (listEntry close item).Takes (part.tokens ++ [⟨.symbol close, stop⟩]) rest
      (.last (some part.value, stop)) part.height room := by
  have joined := takes.starts (⟨.symbol close, stop⟩ :: rest)
  refine acceptNone (by simpa using joined) ?_
  refine (bind (takes.taken _ (.inr rfl)) (current ?_)).ofHeight (Nat.max_zero _)
  have closes : (some (Token.symbol close) = some (.symbol .comma)) ↔ False := by simp [other]
  simp only [List.cons_append, List.head?_cons, Option.map_some, closes, if_false]
  exact accept Takes.pure

theorem listNone {close : Symbol} {item : Parser α} {stop : Span} :
    (listEntry close item).Takes [⟨.symbol close, stop⟩] rest (.last (none, stop)) 0 room :=
  accept Takes.pure

/-- A list takes a row of parts and the closing symbol. -/
theorem list {close : Symbol} (other : close ≠ .comma) {item : Parser α} {parts : List (Part α)}
    {stop : Span} (row : Commas (parts.map Part.tokens) tokens)
    (each : ∀ part ∈ parts, TakesPart close item room part) :
    (Parser.list close item).Takes (tokens ++ [⟨.symbol close, stop⟩]) rest
      (parts.map Part.value, stop) (highest (parts.map Part.height)) room := by
  have sequenced : ∃ values found, values ++ found.toList = parts.map Part.value ∧
      (sequence (.symbol .comma) (listEntry close item)).Takes
        (tokens ++ [⟨.symbol close, stop⟩]) rest (values, found, stop)
        (highest (parts.map Part.height)) room := by
    generalize same : parts.map Part.tokens = lists at row
    induction row generalizing parts with
    | none =>
      obtain rfl := List.map_eq_nil_iff.mp same
      exact ⟨[], none, rfl, sequenceLast listNone⟩
    | last tokens =>
      obtain ⟨part, rfl, rfl⟩ := List.map_eq_singleton_iff.mp same
      refine ⟨[], some part.value, rfl, ?_⟩
      simpa using sequenceLast (listLast other (each part List.mem_cons_self))
    | more tokens comma _ continued =>
      obtain ⟨part, others, rfl, rfl, rfl⟩ := List.map_eq_cons_iff.mp same
      obtain ⟨values, found, same, taken⟩ :=
        continued (fun part member => each part (List.mem_cons_of_mem _ member)) rfl
      refine ⟨part.value :: values, found, by simp [same], ?_⟩
      have both := sequenceItem (listItem comma (each part List.mem_cons_self)) taken
      simpa using both
  obtain ⟨values, found, same, taken⟩ := sequenced
  exact last taken (same ▸ Takes.pure)

/-- A list of names takes the names. -/
theorem names {close : Symbol} (other : close ≠ .comma) {role : NameRole} {names : List Name}
    {stop : Span} (row : Commas (names.map fun name => [name.ident]) tokens) :
    (Parser.list close (Parser.name role)).Takes (tokens ++ [⟨.symbol close, stop⟩]) rest
      (names, stop) 0 room := by
  generalize made : names.map (fun name => Part.mk [name.ident] name 0) = parts
  have spelled : parts.map Part.tokens = names.map fun name => [name.ident] := by
    simp [← made]
  have values : parts.map Part.value = names := by
    rw [← made, List.map_map]
    exact List.map_id names
  have flat : highest (parts.map Part.height) = 0 := by
    refine highest_eq_zero fun height member => ?_
    simp only [← made, List.map_map, List.mem_map] at member
    obtain ⟨name, _, rfl⟩ := member
    rfl
  rw [← spelled] at row
  rw [← values, ← flat]
  refine list other row fun part member => ?_
  rw [← made] at member
  obtain ⟨name, _, rfl⟩ := List.mem_map.mp member
  exact ⟨fun _ _ => named, fun _ => nofun⟩

/-! ### Phrases one after the other -/

/-- An opened list ends where another token stands. -/
theorem openedNone {opener : Token} {item : Span → Parser α}
    (ended : rest.head?.map Spanned.node ≠ some opener) :
    (Parser.opened opener item).Takes [] rest [] 0 room := by
  refine ofRun (run_opened _ _) ?_
  exact acceptNone ended Takes.pure

/-- An opened list takes one item more after its opening token. -/
theorem openedMore {opener : Token} {item : Span → Parser α} {span : Span} {others : Tokens}
    {value : α} {values : List α} {depth : Nat}
    (taken : (item span).Takes tokens (others ++ rest) value height room)
    (continued : (Parser.opened opener item).Takes others rest values depth room) :
    (Parser.opened opener item).Takes (⟨opener, span⟩ :: (tokens ++ others)) rest (value :: values)
      (max height depth) room := by
  refine ofRun (run_opened _ _) ?_
  exact accept (bind taken (last continued Takes.pure))

theorem untilEndNone {item : Parser α} {advances : item.Advances} :
    (Parser.untilEnd item advances).Takes [] [] [] 0 room := by
  refine ofRun (run_untilEnd _ _) ?_
  exact current Takes.pure

/-- Items up to the end of the input take one item more. -/
theorem untilEndMore {item : Parser α} {advances : item.Advances} {others : Tokens}
    {value : α} {values : List α} {depth : Nat} (some : tokens ≠ [])
    (taken : item.Takes tokens (others ++ rest) value height room)
    (continued : (Parser.untilEnd item advances).Takes others rest values depth room) :
    (Parser.untilEnd item advances).Takes (tokens ++ others) rest (value :: values)
      (max height depth) room := by
  obtain ⟨first, more, rfl⟩ := List.exists_cons_of_ne_nil some
  refine ofRun (run_untilEnd _ _) ?_
  exact current (bind taken (last continued Takes.pure))

end Takes

end Parser

end ContractSyntax
