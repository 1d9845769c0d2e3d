/-
**Printed definitions are derived again.**

* `Item.Derives.reprinted`: for each kind of definition;
* `Program.Derives.reprinted`: for programs.
-/

import ContractSyntax.Proofs.Printing.Derivation

namespace ContractSyntax

open Piece

variable {places : Tokens} {height : Nat}

/-- What is derived over some tokens is derived over the same ones in another form. -/
theorem rederived {α : Type} {meaning : Tokens → α → Nat → Prop} {printed : Tokens} {value same : α}
    {levels : Nat} (derived : meaning places value height) (tokens : places = printed)
    (erased : value = same) (measured : height = levels) : meaning printed same levels := by
  subst tokens erased measured
  exact derived

/-! ### Parts of definitions -/

theorem Derives.reprinted_expr {tree : Spanned Expr} (derived : Derives .subexpr places tree height) :
    Derives .subexpr (bare (tokens tree.node.pieces)) (erase tree) (exprGauged .levels tree) :=
  derived.reprinted

theorem Derives.reprinted_type {tree : Spanned Ty} (derived : Derives .subtype places tree height) :
    Derives .subtype (bare (tokens tree.node.pieces)) (erase tree) (typeGauged .levels tree) :=
  derived.reprinted

/-- The members of a row are derived again from the printed row. -/
theorem Row.reprinted {α : Type} [Relocate α] {meaning : Tokens → α → Nat → Prop}
    {values : List α} (row : Row meaning places values height) (pieces : α → List Piece)
    (measure : α → Nat)
    (each : ∀ places value height, meaning places value height →
      meaning (bare (tokens (pieces value))) (erase value) (measure value)) :
    Row meaning (bare (tokens (commas (values.map pieces)))) (erase values)
      (gaugedAll measure values) := by
  obtain ⟨parts, _, rfl, _, derived⟩ := row
  exact reprint_row (List.forall_mem_map.mpr fun part member => each _ _ _ (derived part member))

theorem TypedName.Derives.reprinted {typed : TypedName}
    (derived : TypedName.Derives places typed height) :
    TypedName.Derives (bare (tokens typed.pieces)) (erase typed) (typed.gauged .levels) := by
  obtain ⟨name, colon, type⟩ := derived
  exact .mk (erase name) nowhere type.reprinted_type

theorem Attribute.Derives.reprinted {mark : Attribute}
    (derived : Attribute.Derives places mark height) :
    Attribute.Derives (ContractSyntax.bare (tokens mark.pieces)) (erase mark)
      (mark.gauged .levels) := by
  cases derived with
  | bare start name => exact .bare nowhere (erase name)
  | applied start opened stop name row =>
    have row := row.reprinted _ _ fun _ _ _ derived => derived.reprinted_expr
    exact rederived (Attribute.Derives.applied nowhere nowhere nowhere (erase name) row)
      (by simp [Attribute.pieces, argumentPieces, exprPieces_eq]) rfl rfl

/-- A name before a colon as it is printed. -/
def labelPieces : Option Name → List Piece
  | none => []
  | some label => [ident label.node, sign .colon, space]

theorem Labelled.reprinted {label : Option Name} (labelled : Labelled places label) :
    Labelled (bare (tokens (labelPieces label))) (erase label) := by
  cases labelled with
  | absent => exact .absent
  | present name => exact .present (erase name) nowhere

theorem Condition.pieces_eq (condition : Condition) :
    condition.pieces = labelPieces condition.label ++ condition.condition.node.pieces := by
  obtain ⟨label, condition⟩ := condition
  cases label <;> rfl

theorem Condition.Derives.reprinted {condition : Condition}
    (derived : Condition.Derives places condition height) :
    Condition.Derives (bare (tokens condition.pieces)) (erase condition)
      (exprGauged .levels condition.condition) := by
  obtain ⟨labelled, expr⟩ := derived
  exact rederived (Condition.Derives.mk labelled.reprinted expr.reprinted_expr)
    (by simp [Condition.pieces_eq]) rfl rfl

/-- A condition after a reserved word as it is printed. -/
def clausePieces (start : Keyword) : Option (Spanned Expr) → List Piece
  | none => []
  | some condition => [word start, space] ++ condition.node.pieces

theorem Clause.reprinted {start : Keyword} {found : Option (Spanned Expr)}
    (clause : Clause start places found height) :
    Clause start (bare (tokens (clausePieces start found))) (erase found)
      (gaugedAll (exprGauged .levels) found.toList) := by
  cases clause with
  | absent => exact .absent
  | present _ derived =>
    exact rederived (Clause.present nowhere derived.reprinted_expr) (by simp [clausePieces]) rfl
      (Nat.max_zero _).symm

/-- A contract as it is printed after the type of a result. -/
def contractPieces : Option Contract → List Piece
  | none => []
  | some contract => space :: contract.pieces

theorem tokens_clauses (pre post : Option (Spanned Expr)) :
    tokens (contractPieces (Contract.ofClauses pre post)) =
      tokens (clausePieces .pre pre) ++ tokens (clausePieces .post post) := by
  cases pre <;> cases post <;>
    simp [contractPieces, Contract.ofClauses, Contract.pieces, clausePieces, separated]

theorem erase_ofClauses (pre post : Option (Spanned Expr)) :
    erase (Contract.ofClauses pre post) = Contract.ofClauses (erase pre) (erase post) := by
  cases pre <;> cases post <;> rfl

theorem Contract.Derives.reprinted {contract : Option Contract}
    (derived : Contract.Derives places contract height) :
    Contract.Derives (bare (tokens (contractPieces contract))) (erase contract)
      (gaugedAll (Contract.gauged .levels) contract.toList) := by
  cases derived with
  | conditions start opened stop row =>
    have row := row.reprinted _ _ fun _ _ _ derived => derived.reprinted
    exact rederived (Contract.Derives.conditions nowhere nowhere nowhere row)
      (by simp [contractPieces, Contract.pieces]) rfl (Nat.max_zero _).symm
  | clauses pre post =>
    exact rederived (Contract.Derives.clauses pre.reprinted post.reprinted)
      (by simp [tokens_clauses]) (erase_ofClauses _ _).symm (gauged_ofClauses _ _).symm

theorem Variant.Derives.reprinted {variant : Variant}
    (derived : Variant.Derives places variant height) :
    Variant.Derives (ContractSyntax.bare (tokens variant.pieces)) (erase variant)
      (variant.gauged .levels) := by
  cases derived with
  | bare name => exact .bare (erase name)
  | parts name start stop row =>
    have row := row.reprinted (fun part => part.node.pieces) _ fun _ _ _ derived =>
      derived.reprinted_type
    exact rederived (Variant.Derives.parts (erase name) nowhere nowhere row)
      (by simp [Variant.pieces]) rfl rfl

/-! ### Headers and paths -/

theorem Several.reprinted {α : Type} [Relocate α] {meaning : Tokens → α → Nat → Prop}
    {values : List α} (several : Several meaning places values height) {pieces : α → List Piece}
    {measure : α → Nat}
    (each : ∀ places value height, meaning places value height →
      meaning (bare (tokens (pieces value))) (erase value) (measure value)) :
    Several meaning (bare (tokens (values.flatMap fun value => pieces value ++ [newline])))
      (erase values) (gaugedAll measure values) := by
  induction several with
  | none => exact .none
  | more first _ continued =>
    exact rederived (Several.more (each _ _ _ first) continued) (by simp) rfl rfl

theorem spanBefore_bare (tokens : List Token) : spanBefore nowhere (bare tokens) = nowhere := by
  cases tokens <;> rfl

theorem tokens_header (attributes : List Attribute) (isShown : Bool) :
    tokens (headerPieces attributes (if isShown then .shown else .hidden)) =
      tokens (attributes.flatMap fun mark => mark.pieces ++ [newline]) ++
        if isShown then [.keyword .pub] else [] := by
  cases isShown <;> simp [headerPieces]

theorem Parser.Header.Derives.reprinted {header : Parser.Header} {following : Span}
    (headed : header.Derives following places height) :
    Parser.Header.Derives nowhere
      (bare (tokens (headerPieces header.attributes header.visibility)))
      ⟨nowhere, erase header.attributes, header.visibility⟩
      (gaugedAll (Attribute.gauged .levels) header.attributes) := by
  obtain @⟨_, _, attributes, isShown, _, several, _⟩ := headed
  have several := several.reprinted fun _ _ _ derived => derived.reprinted
  have shown : Marks .pub isShown _ := reprint_mark
  refine rederived (Parser.Header.Derives.mk several shown) ?_ ?_ rfl
  · rw [← bare_append, tokens_header]
  · rw [← bare_append, spanBefore_bare]

theorem bare_path (first : Name) (rest : List (Span × Name)) :
    bare (tokens (separated [sign .colonColon]
        ((first :: rest.map (·.2)).map fun part => [ident part.node]))) =
      (erase first).ident :: pathTokens (rest.map fun part => (nowhere, erase part.2)) := by
  induction rest generalizing first with
  | nil => rfl
  | cons part rest continued => exact congrArg ([_, _] ++ ·) (continued part.2)

/-! ### Definitions -/

theorem Item.pieces_function (item : FunctionItem) :
    (Item.function item).pieces =
      headerPieces item.attributes item.visibility ++ [word .fn, space, ident item.name.node] ++
        parens (item.parameters.map TypedName.pieces) ++ [space, sign .arrow, space] ++
        labelPieces item.resultName ++ item.resultType.node.pieces ++
        contractPieces item.contract ++ [space, sign .equal, space] ++ item.body.node.pieces ++
        [sign .semicolon] := by
  obtain ⟨_, _, _, _, result, _, contract, _, _⟩ := item
  cases result <;> cases contract <;> rfl

/-- A definition is derived again from its printed tokens. -/
theorem Item.Derives.reprinted {item : Item} (derived : Item.Derives places item height) :
    Item.Derives (bare (tokens item.pieces)) (erase item) (item.gauged .levels) := by
  cases derived with
  | use start stop first rest =>
    refine rederived (Item.Derives.use nowhere nowhere (erase first)
      (rest.map fun part => (nowhere, erase part.2))) ?_ ?_ rfl
    · rw [Item.pieces, tokens_append, tokens_append, bare_append, bare_append, bare_path]
      rfl
    · have same : (rest.map fun part => (nowhere, erase part.2)).map (·.2) =
          erase (rest.map (·.2)) := by
        show _ = (rest.map (·.2)).map erase
        rw [List.map_map, List.map_map]
        rfl
      exact congrArg (fun path => Item.use ⟨erase first :: path, nowhere⟩) same
  | struct word opened stop name headed row =>
    have row := row.reprinted TypedName.pieces _ fun _ _ _ derived => derived.reprinted
    exact rederived (Item.Derives.struct nowhere nowhere nowhere (erase name) headed.reprinted row)
      (by simp [Item.pieces]) rfl rfl
  | enum word opened stop name headed row =>
    have row := row.reprinted Variant.pieces _ fun _ _ _ derived => derived.reprinted
    exact rederived (Item.Derives.enum nowhere nowhere nowhere (erase name) headed.reprinted row)
      (by simp [Item.pieces]) rfl rfl
  | function _ _ _ _ _ _ name headed row named derivedType derivedContract derivedBody =>
    have row := row.reprinted TypedName.pieces _ fun _ _ _ derived => derived.reprinted
    refine rederived (Item.Derives.function nowhere nowhere nowhere nowhere nowhere nowhere
      (erase name) headed.reprinted row named.reprinted derivedType.reprinted_type
      derivedContract.reprinted derivedBody.reprinted_expr) ?_ rfl rfl
    simp [Item.pieces_function]

/-- A program is derived again from its printed tokens. -/
theorem Program.Derives.reprinted {program : Program} (derived : program.Derives places height) :
    Program.Derives (bare (tokens program.pieces)) program.erased (program.gauged .levels) :=
  Several.reprinted derived fun _ _ _ derived => derived.reprinted

end ContractSyntax
