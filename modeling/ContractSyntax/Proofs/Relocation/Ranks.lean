/-
**Numbering the tokens of a text.**

Sending every offset to the number of tokens that start before it keeps the order of offsets, so it is
a relocation. The tokens of a text lie one after the other, and become tokens one wide that begin at
their own number; the end of the text becomes the number of all tokens. What is left of a place then
is which token stands there, and texts with the same tokens differ in nothing else.

* `Tokens.ranks`: the relocation;
* `relocate_ranks_eq`: tokens of two texts, equal but for their places, become equal;
* `SyntaxError.IsAt.rank`: an error becomes one at the number of the token that it is about.
-/

import ContractSyntax.Proofs.Failure.Stopping
import ContractSyntax.Proofs.Lexing.Places
import ContractSyntax.Proofs.Relocation.Tree

namespace ContractSyntax

namespace Tokens

/-- Every offset becomes the number of tokens that start before it. -/
def ranks (tokens : Tokens) : Relocation where
  offset offset := tokens.countP fun token => token.span.start < offset
  mono less := List.countP_mono_left fun _ _ before => by
    simp only [decide_eq_true_eq] at before ⊢
    exact Nat.lt_of_lt_of_le before less

variable {low middle high size : Nat} {tokens others before after : Tokens}

theorem Between.start_lt (between : tokens.Between low high) :
    ∀ token ∈ tokens, token.span.start < high := by
  induction tokens generalizing low with
  | nil => exact List.forall_mem_nil _
  | cons token rest continued =>
    obtain ⟨_, some, behind⟩ := between
    exact List.forall_mem_cons.mpr ⟨Nat.lt_of_lt_of_le some behind.le, continued behind⟩

theorem Between.le_start (between : tokens.Between low high) :
    ∀ token ∈ tokens, low ≤ token.span.start := by
  induction tokens generalizing low with
  | nil => exact List.forall_mem_nil _
  | cons token rest continued =>
    obtain ⟨start, some, behind⟩ := between
    refine List.forall_mem_cons.mpr ⟨start, fun other member => ?_⟩
    exact Nat.le_trans start (Nat.le_trans (Nat.le_of_lt some) (continued behind other member))

/-- Where one part of the tokens ends and the other begins, as many have started as the first part
has. -/
theorem ranks_between (first : before.Between low middle) (second : after.Between middle high) :
    (ranks (before ++ after)).offset middle = before.length := by
  have all : before.countP (fun token => token.span.start < middle) = before.length :=
    List.countP_eq_length.mpr fun token member => decide_eq_true (first.start_lt token member)
  have none : after.countP (fun token => token.span.start < middle) = 0 :=
    List.countP_eq_zero.mpr fun token member => by
      simpa using second.le_start token member
  show (before ++ after).countP (fun token => token.span.start < middle) = before.length
  rw [List.countP_append, all, none, Nat.add_zero]

theorem ranks_end (between : tokens.Between low size) :
    (ranks tokens).offset size = tokens.length := by
  have nothing : Tokens.Between size size [] := Nat.le_refl size
  have split := ranks_between between nothing
  rwa [List.append_nil] at split

/-- A token becomes one wide and begins at its own number. -/
theorem relocate_ranks_span (between : tokens.Between low high) {index : Nat} {token : Spanned Token}
    (here : tokens[index]? = some token) :
    token.span.relocate (ranks tokens) = ⟨index, index + 1⟩ := by
  obtain ⟨before, after, rfl, rfl⟩ :
      ∃ before after, tokens = before ++ token :: after ∧ before.length = index := by
    obtain ⟨inside, rfl⟩ := List.getElem?_eq_some_iff.mp here
    refine ⟨tokens.take index, tokens.drop (index + 1), ?_,
      List.length_take_of_le (Nat.le_of_lt inside)⟩
    rw [← List.drop_eq_getElem_cons inside, List.take_append_drop]
  obtain ⟨middle, first, start, some, second⟩ := between_append.mp between
  have starts : (ranks (before ++ token :: after)).offset token.span.start = before.length :=
    ranks_between (first.mono (Nat.le_refl _) start) ⟨Nat.le_refl _, some, second⟩
  have one : Between middle token.span.stop [token] := ⟨start, some, Nat.le_refl _⟩
  have stops := ranks_between (between_append.mpr ⟨middle, first, one⟩) second
  rw [List.append_assoc, List.singleton_append, List.length_append, List.length_singleton] at stops
  exact congr (congrArg Span.mk starts) stops

/-- Tokens that are equal but for their places become equal. -/
theorem relocate_ranks_eq (first : tokens.Between low high) {lower higher : Nat}
    (second : others.Between lower higher)
    (same : tokens.map Spanned.node = others.map Spanned.node) :
    relocate (ranks tokens) tokens = relocate (ranks others) others := by
  refine List.ext_getElem? fun index => ?_
  have nodes := congrArg (·[index]?) same
  simp only [List.getElem?_map] at nodes
  show (tokens.map _)[index]? = (others.map _)[index]?
  rw [List.getElem?_map, List.getElem?_map]
  cases here : tokens[index]? with
  | none =>
    cases there : others[index]? with
    | none => rfl
    | some other => rw [here, there] at nodes; cases nodes
  | some token =>
    cases there : others[index]? with
    | none => rw [here, there] at nodes; cases nodes
    | some other =>
      rw [here, there] at nodes
      have spans := (relocate_ranks_span first here).trans (relocate_ranks_span second there).symm
      show some (⟨token.node, token.span.relocate _⟩ : Spanned Token) = some ⟨other.node, _⟩
      rw [Option.some.inj nodes, spans]

end Tokens

/-- An error starts at the number of the token that it is about. -/
theorem SyntaxError.IsAt.rank {error : SyntaxError} {size index low : Nat} {tokens : Tokens}
    (isAt : error.IsAt size tokens index) (between : tokens.Between low size) :
    (Tokens.ranks tokens).offset error.span.start = index := by
  rw [isAt.span]
  cases here : tokens[index]? with
  | some token => exact congrArg Span.start (Tokens.relocate_ranks_span between here)
  | none =>
    have ended : index = tokens.length :=
      Nat.le_antisymm isAt.within (List.getElem?_eq_none_iff.mp here)
    exact (Tokens.ranks_end between).trans ended.symm

end ContractSyntax
