/-
**Moving the spans of definitions and programs.**

* `Program.text_relocate`: a moved program is printed as before;
* `Program.erased`: a program without its spans.
-/

import ContractSyntax.Proofs.Relocation.Tree

namespace ContractSyntax

/-! ### Parts of definitions -/

/-- The condition with its spans moved. -/
def Condition.relocate (move : Relocation) (condition : Condition) : Condition :=
  ⟨ContractSyntax.relocate move condition.label, ContractSyntax.relocate move condition.condition⟩

instance : Relocate Condition := ⟨Condition.relocate⟩

/-- The contract with its spans moved. -/
def Contract.relocate (move : Relocation) : Contract → Contract
  | conditions list => conditions (ContractSyntax.relocate move list)
  | clauses pre post =>
    clauses (ContractSyntax.relocate move pre) (ContractSyntax.relocate move post)

instance : Relocate Contract := ⟨Contract.relocate⟩

/-- The attribute with its spans moved. -/
def Attribute.relocate (move : Relocation) (mark : Attribute) : Attribute :=
  ⟨ContractSyntax.relocate move mark.name, ContractSyntax.relocate move mark.arguments,
    mark.span.relocate move⟩

instance : Relocate Attribute := ⟨Attribute.relocate⟩

/-- The name and its type with their spans moved. -/
def TypedName.relocate (move : Relocation) (typed : TypedName) : TypedName :=
  ⟨ContractSyntax.relocate move typed.name, ContractSyntax.relocate move typed.type⟩

instance : Relocate TypedName := ⟨TypedName.relocate⟩

/-- The variant with its spans moved. -/
def Variant.relocate (move : Relocation) (variant : Variant) : Variant :=
  ⟨ContractSyntax.relocate move variant.name, ContractSyntax.relocate move variant.parts⟩

instance : Relocate Variant := ⟨Variant.relocate⟩

/-! ### Definitions -/

/-- The path with its spans moved. -/
def UseItem.relocate (move : Relocation) (item : UseItem) : UseItem :=
  ⟨ContractSyntax.relocate move item.path, item.span.relocate move⟩

instance : Relocate UseItem := ⟨UseItem.relocate⟩

/-- The structure with its spans moved. -/
def StructItem.relocate (move : Relocation) (item : StructItem) : StructItem :=
  ⟨ContractSyntax.relocate move item.attributes, item.visibility,
    ContractSyntax.relocate move item.name, ContractSyntax.relocate move item.fields,
    item.span.relocate move⟩

instance : Relocate StructItem := ⟨StructItem.relocate⟩

/-- The enumeration with its spans moved. -/
def EnumItem.relocate (move : Relocation) (item : EnumItem) : EnumItem :=
  ⟨ContractSyntax.relocate move item.attributes, item.visibility,
    ContractSyntax.relocate move item.name, ContractSyntax.relocate move item.variants,
    item.span.relocate move⟩

instance : Relocate EnumItem := ⟨EnumItem.relocate⟩

/-- The function with its spans moved. -/
def FunctionItem.relocate (move : Relocation) (item : FunctionItem) : FunctionItem :=
  ⟨ContractSyntax.relocate move item.attributes, item.visibility,
    ContractSyntax.relocate move item.name, ContractSyntax.relocate move item.parameters,
    ContractSyntax.relocate move item.resultName, ContractSyntax.relocate move item.resultType,
    ContractSyntax.relocate move item.contract, ContractSyntax.relocate move item.body,
    item.span.relocate move⟩

instance : Relocate FunctionItem := ⟨FunctionItem.relocate⟩

/-- The definition with its spans moved. -/
def Item.relocate (move : Relocation) : Item → Item
  | use item => use (item.relocate move)
  | struct item => struct (item.relocate move)
  | enum item => enum (item.relocate move)
  | function item => function (item.relocate move)

instance : Relocate Item := ⟨Item.relocate⟩

theorem Item.span_relocate (move : Relocation) (item : Item) :
    (item.relocate move).span = item.span.relocate move := by
  cases item <;> rfl

theorem Item.name?_relocate (move : Relocation) (item : Item) :
    (item.relocate move).name? = item.name? := by
  cases item <;> rfl

/-- The program with its spans moved. -/
def Program.relocate (move : Relocation) (program : Program) : Program :=
  ⟨ContractSyntax.relocate move program.items⟩

instance : Relocate Program := ⟨Program.relocate⟩

/-- The program without its spans. -/
def Program.erased (program : Program) : Program := program.relocate .erasure

/-! ### Printing -/

section Printing

open Piece

variable (move : Relocation)

/-- Printing the members of a moved list is printing those of the list. -/
theorem map_pieces_relocate {α β : Type} [Relocate α] {pieces : α → β}
    (each : ∀ value, pieces (relocate move value) = pieces value) (values : List α) :
    (relocate move values).map pieces = values.map pieces := by
  show (values.map (relocate move)).map pieces = _
  rw [List.map_map]
  exact List.map_congr_left fun value _ => each value

theorem flatMap_pieces_relocate {α β : Type} [Relocate α] {pieces : α → List β}
    (each : ∀ value, pieces (relocate move value) = pieces value) (values : List α) :
    (relocate move values).flatMap pieces = values.flatMap pieces :=
  congrArg List.flatten (map_pieces_relocate move each values)

theorem exprPieces_map (exprs : List (Spanned Expr)) :
    exprPieces (relocate move exprs) = exprPieces exprs := by
  rw [← relocateExprs_eq, exprPieces_relocate]

theorem Condition.pieces_relocate (condition : Condition) :
    (condition.relocate move).pieces = condition.pieces := by
  obtain ⟨label, ⟨expr, span⟩⟩ := condition
  have same := expr.pieces_relocate move
  cases label with
  | none => exact same
  | some label => exact congrArg (fun pieces => [ident label.node, sign .colon, space] ++ pieces) same

theorem Contract.pieces_relocate (contract : Contract) :
    (contract.relocate move).pieces = contract.pieces := by
  cases contract with
  | conditions list =>
    have each := map_pieces_relocate move (Condition.pieces_relocate move) list
    exact congrArg (fun lists => [word .where_, space] ++ braces lists) each
  | clauses pre post =>
    have same (found : Option (Spanned Expr)) (start : Keyword) :
        (ContractSyntax.relocate move found).toList.map
            (fun expr => [word start, space] ++ expr.node.pieces) =
          found.toList.map fun expr => [word start, space] ++ expr.node.pieces := by
      cases found with
      | none => rfl
      | some expr =>
        exact congrArg (fun pieces => [[word start, space] ++ pieces])
          (expr.node.pieces_relocate move)
    simp only [Contract.relocate, Contract.pieces, same]

theorem Attribute.pieces_relocate (mark : Attribute) :
    (mark.relocate move).pieces = mark.pieces := by
  obtain ⟨name, given, span⟩ := mark
  cases given with
  | none => rfl
  | some given =>
    exact congrArg (fun lists => [sign .at_, ident name.node] ++ parens lists)
      (exprPieces_map move given)

theorem headerPieces_relocate (attributes : List Attribute) (visibility : Visibility) :
    headerPieces (relocate move attributes) visibility = headerPieces attributes visibility := by
  have each : (relocate move attributes).flatMap (fun mark => mark.pieces ++ [newline]) =
      attributes.flatMap fun mark => mark.pieces ++ [newline] :=
    flatMap_pieces_relocate move
      (fun mark => congrArg (· ++ [newline]) (mark.pieces_relocate move)) attributes
  simp only [headerPieces, each]

theorem TypedName.pieces_relocate (typed : TypedName) :
    (typed.relocate move).pieces = typed.pieces :=
  congrArg (fun pieces => [ident typed.name.node, sign .colon, space] ++ pieces)
    (typed.type.node.pieces_relocate move)

theorem Variant.pieces_relocate (variant : Variant) :
    (variant.relocate move).pieces = variant.pieces := by
  obtain ⟨name, parts⟩ := variant
  cases parts with
  | none => rfl
  | some parts =>
    have each : (ContractSyntax.relocate move parts).map (fun part => part.node.pieces) =
        parts.map fun part => part.node.pieces :=
      map_pieces_relocate move (fun part => part.node.pieces_relocate move) parts
    exact congrArg (fun lists => ident name.node :: parens lists) each

theorem Item.pieces_relocate (item : Item) : (item.relocate move).pieces = item.pieces := by
  cases item with
  | use item =>
    have each : (ContractSyntax.relocate move item.path).map (fun part => [ident part.node]) =
        item.path.map fun part => [ident part.node] :=
      map_pieces_relocate move (fun _ => rfl) item.path
    simp only [Item.relocate, UseItem.relocate, Item.pieces, each]
  | struct item =>
    have each := map_pieces_relocate move (TypedName.pieces_relocate move) item.fields
    simp only [Item.relocate, StructItem.relocate, Item.pieces, headerPieces_relocate, each]
    rfl
  | enum item =>
    have each := map_pieces_relocate move (Variant.pieces_relocate move) item.variants
    simp only [Item.relocate, EnumItem.relocate, Item.pieces, headerPieces_relocate, each]
    rfl
  | function item =>
    obtain ⟨attributes, visibility, name, parameters, result, type, contract, body, span⟩ := item
    have each := map_pieces_relocate move (TypedName.pieces_relocate move) parameters
    have typed := type.node.pieces_relocate move
    have made := body.node.pieces_relocate move
    simp only [Item.relocate, FunctionItem.relocate, Item.pieces, headerPieces_relocate, each]
    rw [show (ContractSyntax.relocate move type).node.pieces = type.node.pieces from typed,
      show (ContractSyntax.relocate move body).node.pieces = body.node.pieces from made]
    cases contract with
    | none => cases result <;> rfl
    | some contract =>
      have agreed : (ContractSyntax.relocate move contract).pieces = contract.pieces :=
        contract.pieces_relocate move
      simp only [relocate_some, agreed]
      cases result <;> rfl

theorem Program.pieces_relocate (program : Program) :
    (program.relocate move).pieces = program.pieces := by
  exact flatMap_pieces_relocate move
    (fun item => congrArg (· ++ [newline]) (item.pieces_relocate move)) program.items

/-- A moved program is printed as before. -/
theorem Program.text_relocate (program : Program) : (program.relocate move).text = program.text := by
  rw [Program.text, program.pieces_relocate move, Program.text]

end Printing

end ContractSyntax
