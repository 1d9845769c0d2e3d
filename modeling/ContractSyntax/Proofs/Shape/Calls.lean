/-
**What calls give is in shape.**

A session is asked to read one phrase after the other, and goes on from wherever the last reading has
stopped. It stays among the tokens that it started with; so if these have the shapes that the tokens
of a text have, every tree that it gives has a derivation over such tokens.

* `Call.Shaped`: what a call gives, in shape;
* `Session.shaped_call`: after any calls, what a call gives is in shape.
-/

import ContractSyntax.Proofs.Lexing.Scans
import ContractSyntax.Proofs.Reading
import ContractSyntax.Proofs.Sessions.Calls
import ContractSyntax.Proofs.Shape.Derived

namespace ContractSyntax

/-- Whether a token is one of those that some text is made of. -/
def Token.IsLexed (token : Token) : Prop :=
  ∃ source tokens, tokenize source = .ok tokens ∧ token ∈ tokens.map Spanned.node

theorem Token.IsLexed.wellFormed {token : Token} (lexed : token.IsLexed) : token.WellFormed := by
  obtain ⟨source, tokens, ok, member⟩ := lexed
  obtain ⟨place, inside, rfl⟩ := List.mem_map.mp member
  exact wellFormed_of_tokenize ok place inside

theorem Tokens.wellFormed_of_lexed {tokens : Tokens} (lexed : ∀ place ∈ tokens, place.node.IsLexed) :
    tokens.WellFormed := fun place member => (lexed place member).wellFormed

theorem Tokens.WellFormed.of_reaches {earlier later : Cursor}
    (wellFormed : Tokens.WellFormed earlier.remaining) (reached : earlier.Reaches later) :
    Tokens.WellFormed later.remaining := by
  obtain ⟨passed, passes⟩ := reached
  rw [passes.remaining, Tokens.wellFormed_append] at wellFormed
  exact wellFormed.2

/-- Whether what a call gives is in shape. -/
def Call.Shaped (demand : Demand) : (call : Call) → call.Tree → Prop
  | .expression, tree => tree.node.Shaped demand .value
  | .type, tree => tree.node.Shaped demand
  | .pattern, tree => tree.node.Shaped
  | .contract, (tree : Option Contract) => ∀ contract ∈ tree, contract.Shaped demand
  | .item, tree => tree.Shaped demand
  | .program, tree | .collection _, tree => tree.Shaped demand

namespace Session

variable {session : Session}

/-- What a reading gives holds if it holds for derivations over tokens of the shapes of their kinds. -/
theorem holds_of_read {α : Type} {parser : Parser α} {meaning : Tokens → α → Nat → Cursor → Prop}
    (wellFormed : Tokens.WellFormed session.cursor.remaining)
    (yields : parser.Yields session.cursor meaning) {holds : α → Prop}
    (each : ∀ tokens value height after, meaning tokens value height after → tokens.WellFormed →
      holds value) {value : α} (gave : (session.read parser).1 = .ok value) : holds value := by
  obtain ⟨tokens, height, after, passes, _, derived⟩ := meaning_of_read yields gave
  rw [passes.remaining, Tokens.wellFormed_append] at wellFormed
  exact each tokens value height after derived wellFormed.1

theorem shaped_item (wellFormed : Tokens.WellFormed session.cursor.remaining) {item : Item}
    (gave : (session.read Parser.item).1 = .ok item) : item.Shaped .bare :=
  holds_of_read wellFormed .item (fun _ _ _ _ derived => derived.shaped) gave

theorem shaped_of_call (wellFormed : Tokens.WellFormed session.cursor.remaining) (call : Call)
    {tree : call.Tree} (gave : (session.call call).1 = .ok tree) : call.Shaped .bare tree := by
  cases call with
  | expression =>
    exact holds_of_read wellFormed .expression (fun _ _ _ _ derived => derived.shaped) gave
  | type => exact holds_of_read wellFormed .type (fun _ _ _ _ derived => derived.shaped) gave
  | pattern =>
    exact holds_of_read wellFormed Level.Sound.pattern (fun _ _ _ _ derived => derived.2.shaped) gave
  | contract => exact holds_of_read wellFormed .contract? (fun _ _ _ _ derived => derived.shaped) gave
  | item => exact shaped_item wellFormed gave
  | program => exact holds_of_read wellFormed .program (fun _ _ _ _ derived => derived.1.shaped) gave
  | collection options =>
    exact forall_of_collect (fun _ _ reached _ => shaped_item (wellFormed.of_reaches reached)) gave

/-- **The shape of trees.** Whatever was called before, every tree that a call gives over the tokens of
some text is in shape, with operands that bind as tightly as their places demand. -/
theorem shaped_call (endOffset : Nat) (tokens : Tokens)
    (lexed : ∀ place ∈ tokens, place.node.IsLexed) (earlier : List Call) (call : Call)
    (tree : call.Tree)
    (gave : (((fresh (.start endOffset tokens)).after earlier).call call).1 = .ok tree) :
    call.Shaped .bare tree :=
  have reached := (fresh (.start endOffset tokens)).reaches_after earlier
  shaped_of_call (.of_reaches (Tokens.wellFormed_of_lexed lexed) reached) call gave

theorem shaped_call_of_negative :
    ∃ tokens tree, tokenize "x -1" = .ok tokens ∧
      (((fresh (.start 4 tokens)).after [.pattern]).call .expression).1 = .ok tree ∧
      Call.expression.Shaped .bare tree := by
  let tokens : Tokens := [⟨.ident "x", 0, 1⟩, ⟨.symbol .minus, 2, 3⟩, ⟨.int "1", 3, 4⟩]
  have isLexed : (tokenize "x -1").toOption = some tokens := by decide +kernel
  have lexed := ok_of_toOption isLexed
  have isRead : (((fresh (.start 4 tokens)).after [.pattern]).call .expression).1.isOk := by
    decide +kernel
  obtain ⟨tree, gave⟩ := ok_of_isOk isRead
  refine ⟨tokens, tree, lexed, gave, shaped_call 4 tokens (fun place member => ?_) [.pattern]
    .expression tree gave⟩
  exact ⟨"x -1", tokens, lexed, List.mem_map_of_mem member⟩

end Session

end ContractSyntax
