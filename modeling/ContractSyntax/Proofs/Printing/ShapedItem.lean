/-
**Definitions in shape are derived from their printed tokens.**

* `Contract.Shaped.derives`: contracts;
* `Item.Shaped.derives`: each kind of definition;
* `Program.Shaped.derives`: programs.
-/

import ContractSyntax.Proofs.Printing.Shaped

namespace ContractSyntax

open Piece

/-! ### Parts of definitions -/

theorem Expr.Shaped.derives {expr : Spanned Expr} (shaped : expr.node.Shaped .bare .value) :
    Derives .subexpr (bare (tokens expr.node.pieces)) (erase expr) (exprGauged .levels expr) :=
  shaped.plays.value.subexpr

theorem Ty.Shaped.derives_sub {type : Spanned Ty} (shaped : type.node.Shaped .bare) :
    Derives .subtype (bare (tokens type.node.pieces)) (erase type) (typeGauged .levels type) :=
  .nestedType shaped.derives

theorem TypedName.Shaped.derives {typed : TypedName} (shaped : typed.Shaped .bare) :
    TypedName.Derives (bare (tokens typed.pieces)) (erase typed) (typed.gauged .levels) :=
  .mk (erase typed.name) nowhere shaped.2.derives_sub

theorem Attribute.Shaped.derives {mark : Attribute} (shaped : mark.Shaped .bare) :
    Attribute.Derives (ContractSyntax.bare (tokens mark.pieces)) (erase mark)
      (mark.gauged .levels) := by
  obtain ⟨name, given, span⟩ := mark
  cases given with
  | none => exact .bare nowhere (erase name)
  | some given =>
    have row := reprint_row fun expr member => (shaped.2 given rfl expr member).derives
    exact rederived (Attribute.Derives.applied nowhere nowhere nowhere (erase name) row)
      (by simp [Attribute.pieces, argumentPieces, exprPieces_eq]) rfl rfl

theorem labelled_printed (label : Option Name) :
    Labelled (bare (tokens (labelPieces label))) (erase label) := by
  cases label with
  | none => exact .absent
  | some label => exact .present (erase label) nowhere

theorem Condition.Shaped.derives {condition : Condition} (shaped : condition.Shaped .bare) :
    Condition.Derives (bare (tokens condition.pieces)) (erase condition)
      (exprGauged .levels condition.condition) :=
  rederived (Condition.Derives.mk (labelled_printed condition.label) shaped.2.derives)
    (by simp [Condition.pieces_eq]) rfl rfl

theorem clause_printed (word : Keyword) {condition : Option (Spanned Expr)}
    (shaped : ∀ expr ∈ condition, expr.node.Shaped .bare .value) :
    Clause word (bare (tokens (clausePieces word condition))) (erase condition)
      (gaugedAll (exprGauged .levels) condition.toList) := by
  cases condition with
  | none => exact .absent
  | some condition =>
    exact rederived (Clause.present nowhere (shaped condition rfl).derives)
      (by simp [clausePieces]) rfl (Nat.max_zero _).symm

theorem Contract.ofClauses_of_some {pre post : Option (Spanned Expr)}
    (some : pre.isSome ∨ post.isSome) : Contract.ofClauses pre post = .some (.clauses pre post) := by
  cases pre <;> cases post <;> first | rfl | simp at some

/-- A contract in shape is derived from its printed tokens. -/
theorem Contract.Shaped.derives {contract : Contract} (shaped : contract.Shaped .bare) :
    Contract.Derives (bare (tokens contract.pieces)) (some (erase contract))
      (contract.gauged .levels) := by
  cases contract with
  | conditions list =>
    have row := reprint_row fun condition member => (shaped condition member).derives
    exact rederived (Contract.Derives.conditions nowhere nowhere nowhere row)
      (by simp [Contract.pieces]) rfl rfl
  | clauses pre post =>
    obtain ⟨some, before, after⟩ := shaped
    have erased := erase_ofClauses pre post
    have printed := tokens_clauses pre post
    rw [ofClauses_of_some some] at erased printed
    exact rederived (Contract.Derives.clauses (clause_printed .pre before)
      (clause_printed .post after)) (by rw [← bare_append, ← printed]; rfl) erased.symm rfl

theorem contract_printed {contract : Option Contract}
    (shaped : ∀ some ∈ contract, some.Shaped .bare) :
    Contract.Derives (bare (tokens (contractPieces contract))) (erase contract)
      (gaugedAll (Contract.gauged .levels) contract.toList) := by
  cases contract with
  | none => exact .clauses .absent .absent
  | some contract =>
    exact rederived (shaped contract rfl).derives rfl rfl (Nat.max_zero _).symm

theorem Variant.Shaped.derives {variant : Variant} (shaped : variant.Shaped .bare) :
    Variant.Derives (ContractSyntax.bare (tokens variant.pieces)) (erase variant)
      (variant.gauged .levels) := by
  obtain ⟨name, parts⟩ := variant
  cases parts with
  | none => exact .bare (erase name)
  | some parts =>
    have row := reprint_row fun type member => (shaped.2 parts rfl type member).derives_sub
    exact rederived (Variant.Derives.parts (erase name) nowhere nowhere row)
      (by simp [Variant.pieces]) rfl rfl

/-! ### Headers -/

theorem several_printed {α : Type} [Relocate α] {meaning : Tokens → α → Nat → Prop}
    {pieces : α → List Piece} {measure : α → Nat} {values : List α}
    (each : ∀ value ∈ values,
      meaning (bare (tokens (pieces value))) (erase value) (measure value)) :
    Several meaning (bare (tokens (values.flatMap fun value => pieces value ++ [newline])))
      (erase values) (gaugedAll measure values) := by
  induction values with
  | nil => exact .none
  | cons value values continued =>
    have others := continued fun other member => each other (List.mem_cons_of_mem _ member)
    exact rederived (Several.more (each value List.mem_cons_self) others) (by simp) rfl rfl

theorem header_printed {attributes : List Attribute} (visibility : Visibility)
    (shaped : ∀ mark ∈ attributes, mark.Shaped .bare) :
    Parser.Header.Derives nowhere (bare (tokens (headerPieces attributes visibility)))
      ⟨nowhere, erase attributes, visibility⟩
      (gaugedAll (Attribute.gauged .levels) attributes) := by
  have several := several_printed fun mark member => (shaped mark member).derives
  obtain ⟨isShown, rfl⟩ : ∃ isShown : Bool, visibility = if isShown then .shown else .hidden := by
    cases visibility with
    | hidden => exact ⟨false, rfl⟩
    | shown => exact ⟨true, rfl⟩
  have shown : Marks .pub isShown _ := reprint_mark
  refine rederived (Parser.Header.Derives.mk several shown) ?_ ?_ rfl
  · rw [← bare_append, tokens_header]
  · rw [← bare_append, spanBefore_bare]

/-! ### Definitions -/

/-- A definition in shape is derived from its printed tokens. -/
theorem Item.Shaped.derives {item : Item} (shaped : item.Shaped .bare) :
    Item.Derives (bare (tokens item.pieces)) (erase item) (item.gauged .levels) := by
  cases item with
  | use item =>
    obtain ⟨path, span⟩ := item
    obtain ⟨first, rest, rfl⟩ := List.exists_cons_of_ne_nil shaped.1
    have printed := bare_path first (rest.map fun part => (nowhere, part))
    simp only [List.map_map, Function.comp_def, List.map_id'] at printed
    refine rederived (Item.Derives.use nowhere nowhere (erase first)
      (rest.map fun part => (nowhere, erase part))) ?_ ?_ rfl
    · rw [Item.pieces, tokens_append, tokens_append, bare_append, bare_append, printed]
      rfl
    · have same : (rest.map fun part => (nowhere, erase part)).map (·.2) = erase rest := by
        show _ = rest.map erase
        rw [List.map_map]
        rfl
      exact congrArg (fun path => Item.use ⟨erase first :: path, nowhere⟩) same
  | struct item =>
    obtain ⟨marks, _, fields⟩ := shaped
    have row := reprint_row fun field member => (fields field member).derives
    exact rederived (Item.Derives.struct nowhere nowhere nowhere (erase item.name)
      (header_printed item.visibility marks) row) (by simp [Item.pieces]) rfl rfl
  | enum item =>
    obtain ⟨marks, _, variants⟩ := shaped
    have row := reprint_row fun variant member => (variants variant member).derives
    exact rederived (Item.Derives.enum nowhere nowhere nowhere (erase item.name)
      (header_printed item.visibility marks) row) (by simp [Item.pieces]) rfl rfl
  | function item =>
    obtain ⟨marks, _, parameters, _, type, contract, body⟩ := shaped
    have row := reprint_row fun parameter member => (parameters parameter member).derives
    exact rederived (Item.Derives.function nowhere nowhere nowhere nowhere nowhere nowhere
      (erase item.name) (header_printed item.visibility marks) row
      (labelled_printed item.resultName) type.derives_sub (contract_printed contract) body.derives)
      (by simp [Item.pieces_function]) rfl rfl

/-- A program in shape is derived from its printed tokens. -/
theorem Program.Shaped.derives {program : Program} (shaped : program.Shaped .bare) :
    Program.Derives (bare (tokens program.pieces)) program.erased (program.gauged .levels) :=
  several_printed fun item member => (shaped item member).derives

end ContractSyntax
