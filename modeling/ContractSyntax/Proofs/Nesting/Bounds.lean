/-
**How high the trees are that calls give.**

The counters never go beyond the limit, so that no reading opens more levels than the limit, however
its session was used before. With two nodes at most for each level, this bounds the trees.

* `Session.height_le_of_read`: what a reading gives has a derivation within the limit;
* `Session.nodes_le_call`: after any calls, the height of the trees and the level of a call.
-/

import ContractSyntax.Proofs.Nesting.Nodes
import ContractSyntax.Proofs.Reading
import ContractSyntax.Proofs.Sessions.Calls

namespace ContractSyntax

/-- The most expressions and types on a way down what a call gives. -/
def Call.nodes : (call : Call) → call.Tree → Nat
  | .expression, tree => exprGauged .nodes tree
  | .type, tree => typeGauged .nodes tree
  | .pattern, _ => 0
  | .contract, tree => gaugedAll (Contract.gauged .nodes) tree.toList
  | .item, tree => Item.gauged .nodes tree
  | .program, tree | .collection _, tree => Program.gauged .nodes tree

/-- The members of a list are as high as its highest one. -/
theorem gaugedAll_le_iff {α : Type} {measure : α → Nat} {values : List α} {bound : Nat} :
    gaugedAll measure values ≤ bound ↔ ∀ value ∈ values, measure value ≤ bound := by
  induction values with
  | nil => exact ⟨fun _ => List.forall_mem_nil _, fun _ => Nat.zero_le _⟩
  | cons value values continued =>
    rw [List.forall_mem_cons, ← continued]
    exact Nat.max_le

namespace Session

variable {session : Session}

/-- What a reading gives is derived within the limit of nesting. -/
theorem height_le_of_read {α : Type} {parser : Parser α}
    {meaning : Tokens → α → Nat → Cursor → Prop} (within : session.nesting.Within)
    (yields : parser.Yields session.cursor meaning) {value : α}
    (gave : (session.read parser).1 = .ok value) :
    ∃ tokens height after, meaning tokens value height after ∧ height ≤ nestingLimit := by
  obtain ⟨tokens, height, after, _, climbs, holds⟩ := meaning_of_read yields gave
  refine ⟨tokens, height, after, holds, ?_⟩
  have behind := climbs.within within
  have reached := climbs.reached
  have depth := behind.depth
  have peak := behind.peak
  omega

theorem nodes_le_of_read {α : Type} {parser : Parser α}
    {meaning : Tokens → α → Nat → Cursor → Prop} {measure : α → Nat}
    (within : session.nesting.Within) (yields : parser.Yields session.cursor meaning)
    (bound : ∀ tokens value height after, meaning tokens value height after →
      measure value ≤ 2 * height) {value : α} (gave : (session.read parser).1 = .ok value) :
    measure value ≤ 2 * nestingLimit := by
  obtain ⟨tokens, height, after, holds, fits⟩ := height_le_of_read within yields gave
  exact Nat.le_trans (bound _ _ _ _ holds) (Nat.mul_le_mul_left 2 fits)

theorem nodes_le_item (within : session.nesting.Within) {item : Item}
    (gave : (session.read Parser.item).1 = .ok item) : item.gauged .nodes ≤ 2 * nestingLimit :=
  nodes_le_of_read within .item (fun _ _ _ _ derived => derived.nodes_le) gave

theorem nodes_le_of_call (within : session.nesting.Within) (call : Call) {tree : call.Tree}
    (gave : (session.call call).1 = .ok tree) : call.nodes tree ≤ 2 * nestingLimit := by
  cases call with
  | expression =>
    exact nodes_le_of_read within .expression (fun _ _ _ _ derived => derived.nodes_le) gave
  | type => exact nodes_le_of_read within .type (fun _ _ _ _ derived => derived.nodes_le) gave
  | pattern => exact Nat.zero_le _
  | contract =>
    exact nodes_le_of_read within .contract? (fun _ _ _ _ derived => derived.nodes_le) gave
  | item => exact nodes_le_item within gave
  | program =>
    exact nodes_le_of_read within .program (fun _ _ _ _ derived => derived.1.nodes_le) gave
  | collection options =>
    exact gaugedAll_le_iff.mpr (forall_of_collect
      (fun _ settles _ _ => nodes_le_item (settles.within within)) gave)

end Session

end ContractSyntax
