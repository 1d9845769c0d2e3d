/-
**Trees that were not read are printed and read.**

A tree may have been built otherwise than by reading a text. If it is in shape, its operands may
still bind less tightly than their places demand. It is printed as the tree with a node of
parentheses around exactly these operands, and this one is in the shape of trees that are read.

* `Program.pieces_secured`: parentheses that are nodes do not change the printed text;
* `Program.Shaped.secured`: with them, the operands in a program are as bare as those of a text;
* `givesBack_secured`: what is read in printed trees of every kind.
-/

import ContractSyntax.Proofs.Printing.Fencing
import ContractSyntax.Proofs.Printing.Reread
import Mathlib.Data.Option.Basic

namespace ContractSyntax

open Piece

/-! ### Parts of definitions -/

/-- The condition, with parentheses around each operand that needs them. -/
def Condition.secured (condition : Condition) : Condition :=
  { condition with condition := condition.condition.map Expr.secured }

/-- The contract, with parentheses around each operand that needs them. -/
def Contract.secured : Contract → Contract
  | conditions list => conditions (list.map Condition.secured)
  | clauses pre post =>
    clauses (pre.map (Spanned.map Expr.secured)) (post.map (Spanned.map Expr.secured))

/-- The attribute, with parentheses around each operand that needs them. -/
def Attribute.secured (mark : Attribute) : Attribute :=
  { mark with arguments := mark.arguments.map (List.map (Spanned.map Expr.secured)) }

/-- The field or parameter, with parentheses around each operand that needs them. -/
def TypedName.secured (typed : TypedName) : TypedName :=
  { typed with type := typed.type.map Ty.secured }

/-- The variant, with parentheses around each operand that needs them. -/
def Variant.secured (variant : Variant) : Variant :=
  { variant with parts := variant.parts.map (List.map (Spanned.map Ty.secured)) }

/-- The definition, with parentheses around each operand that needs them. -/
def Item.secured : Item → Item
  | use item => use item
  | struct item =>
    struct { item with
      attributes := item.attributes.map Attribute.secured
      fields := item.fields.map TypedName.secured }
  | enum item =>
    enum { item with
      attributes := item.attributes.map Attribute.secured
      variants := item.variants.map Variant.secured }
  | function item =>
    function { item with
      attributes := item.attributes.map Attribute.secured
      parameters := item.parameters.map TypedName.secured
      resultType := item.resultType.map Ty.secured
      contract := item.contract.map Contract.secured
      body := item.body.map Expr.secured }

/-- The program, with parentheses around each operand that needs them. -/
def Program.secured (program : Program) : Program := ⟨program.items.map Item.secured⟩

/-! ### Printing -/

/-- What is printed for each of some values is printed for what becomes of them. -/
theorem map_pieces_secured {α β : Type} {secured : α → α} {pieces : α → β}
    (each : ∀ value, pieces (secured value) = pieces value) (values : List α) :
    (values.map secured).map pieces = values.map pieces := by
  rw [List.map_map]
  exact List.map_congr_left fun value _ => each value

theorem exprs_pieces_secured (exprs : List (Spanned Expr)) :
    (exprs.map (Spanned.map Expr.secured)).map (fun expr => expr.node.pieces) =
      exprs.map fun expr => expr.node.pieces :=
  map_pieces_secured (fun expr => expr.node.pieces_secured) exprs

theorem Condition.pieces_secured (condition : Condition) :
    condition.secured.pieces = condition.pieces := by
  rw [Condition.pieces_eq, Condition.pieces_eq]
  exact congrArg (labelPieces condition.label ++ ·) condition.condition.node.pieces_secured

theorem Contract.pieces_secured (contract : Contract) :
    contract.secured.pieces = contract.pieces := by
  cases contract with
  | conditions list =>
    simp only [secured, pieces, map_pieces_secured Condition.pieces_secured]
  | clauses pre post =>
    have same (found : Option (Spanned Expr)) (start : Keyword) :
        (found.map (Spanned.map Expr.secured)).toList.map
            (fun expr => [word start, space] ++ expr.node.pieces) =
          found.toList.map fun expr => [word start, space] ++ expr.node.pieces := by
      cases found with
      | none => rfl
      | some expr =>
        exact congrArg (fun pieces => [[word start, space] ++ pieces]) expr.node.pieces_secured
    simp only [secured, pieces, same]

theorem Attribute.pieces_secured (mark : Attribute) : mark.secured.pieces = mark.pieces := by
  obtain ⟨name, given, span⟩ := mark
  cases given with
  | none => rfl
  | some given =>
    simp only [secured, pieces, Option.map_some, argumentPieces, exprPieces_eq,
      exprs_pieces_secured]

theorem headerPieces_secured (attributes : List Attribute) (visibility : Visibility) :
    headerPieces (attributes.map Attribute.secured) visibility =
      headerPieces attributes visibility := by
  simp only [headerPieces, List.flatMap_map, Attribute.pieces_secured]

theorem TypedName.pieces_secured (typed : TypedName) : typed.secured.pieces = typed.pieces :=
  congrArg (fun pieces => [ident typed.name.node, sign .colon, space] ++ pieces)
    typed.type.node.pieces_secured

theorem Variant.pieces_secured (variant : Variant) : variant.secured.pieces = variant.pieces := by
  obtain ⟨name, parts⟩ := variant
  cases parts with
  | none => rfl
  | some parts =>
    have each : (parts.map (Spanned.map Ty.secured)).map (fun part => part.node.pieces) =
        parts.map fun part => part.node.pieces :=
      map_pieces_secured (fun part => part.node.pieces_secured) parts
    exact congrArg (fun lists => ident name.node :: parens lists) each

theorem contractPieces_secured (contract : Option Contract) :
    contractPieces (contract.map Contract.secured) = contractPieces contract := by
  cases contract with
  | none => rfl
  | some contract => exact congrArg (space :: ·) contract.pieces_secured

/-- A definition with parentheses where they are needed is printed as before. -/
theorem Item.pieces_secured (item : Item) : item.secured.pieces = item.pieces := by
  cases item with
  | use => rfl
  | struct item =>
    simp only [secured, pieces, headerPieces_secured,
      map_pieces_secured TypedName.pieces_secured]
  | enum item =>
    simp only [secured, pieces, headerPieces_secured, map_pieces_secured Variant.pieces_secured]
  | function item =>
    simp only [secured, pieces_function, headerPieces_secured, contractPieces_secured,
      map_pieces_secured TypedName.pieces_secured, Spanned.map, Expr.pieces_secured,
      Ty.pieces_secured]

theorem Program.pieces_secured (program : Program) : program.secured.pieces = program.pieces := by
  simp only [secured, pieces, List.flatMap_map, Item.pieces_secured]

/-! ### Shape -/

theorem Condition.Shaped.secured {condition : Condition} (shaped : condition.Shaped .any) :
    condition.secured.Shaped .bare := ⟨shaped.1, shaped.2.secured⟩

theorem Contract.Shaped.secured {contract : Contract} (shaped : contract.Shaped .any) :
    contract.secured.Shaped .bare := by
  cases contract with
  | conditions list =>
    exact List.forall_mem_map.mpr fun condition member => (shaped condition member).secured
  | clauses pre post =>
    obtain ⟨some, before, after⟩ := shaped
    refine ⟨by simpa [secured] using some, ?_, ?_⟩
    · exact Option.forall_mem_map.mpr fun expr member => (before expr member).secured
    · exact Option.forall_mem_map.mpr fun expr member => (after expr member).secured

theorem Attribute.Shaped.secured {mark : Attribute} (shaped : mark.Shaped .any) :
    mark.secured.Shaped .bare :=
  ⟨shaped.1, Option.forall_mem_map.mpr fun given member => List.forall_mem_map.mpr
    fun expr among => (shaped.2 given member expr among).secured⟩

theorem TypedName.Shaped.secured {typed : TypedName} (shaped : typed.Shaped .any) :
    typed.secured.Shaped .bare := ⟨shaped.1, shaped.2.secured⟩

theorem Variant.Shaped.secured {variant : Variant} (shaped : variant.Shaped .any) :
    variant.secured.Shaped .bare :=
  ⟨shaped.1, Option.forall_mem_map.mpr fun parts member => List.forall_mem_map.mpr
    fun type among => (shaped.2 parts member type among).secured⟩

/-- With parentheses where they are needed, a definition has operands as bare as those of a text. -/
theorem Item.Shaped.secured {item : Item} (shaped : item.Shaped .any) :
    item.secured.Shaped .bare := by
  have marks {attributes : List Attribute} (each : ∀ mark ∈ attributes, mark.Shaped .any) :
      ∀ mark ∈ attributes.map Attribute.secured, mark.Shaped .bare :=
    List.forall_mem_map.mpr fun mark member => (each mark member).secured
  cases item with
  | use => exact shaped
  | struct item =>
    obtain ⟨attributes, name, fields⟩ := shaped
    exact ⟨marks attributes, name,
      List.forall_mem_map.mpr fun field member => (fields field member).secured⟩
  | enum item =>
    obtain ⟨attributes, name, variants⟩ := shaped
    exact ⟨marks attributes, name,
      List.forall_mem_map.mpr fun variant member => (variants variant member).secured⟩
  | function item =>
    obtain ⟨attributes, name, parameters, result, type, contract, body⟩ := shaped
    exact ⟨marks attributes, name,
      List.forall_mem_map.mpr fun parameter member => (parameters parameter member).secured, result,
      type.secured, Option.forall_mem_map.mpr fun agreed member => (contract agreed member).secured,
      body.secured⟩

theorem Program.Shaped.secured {program : Program} (shaped : program.Shaped .any) :
    program.secured.Shaped .bare :=
  List.forall_mem_map.mpr fun item member => (shaped item member).secured

/-! ### Reading -/

/-- A printed tree in shape is read as the tree with parentheses around exactly the operands that
bind less tightly than their places demand, but for spans; or the nesting is too deep. -/
theorem givesBack_secured :
    (∀ expr : Spanned Expr, expr.node.Shaped .any .value →
      (readExpr expr.node.text).GivesBack (expr.map Expr.secured)
        (exprGauged .levels (expr.map Expr.secured))) ∧
    (∀ type : Spanned Ty, type.node.Shaped .any →
      (readType type.node.text).GivesBack (type.map Ty.secured)
        (typeGauged .levels (type.map Ty.secured))) ∧
    (∀ pattern : Spanned Pattern, pattern.node.Shaped →
      (readPattern pattern.node.text).GivesBack pattern 0) ∧
    (∀ contract : Contract, contract.Shaped .any →
      (readContract contract.text).GivesBack (some contract.secured)
        (contract.secured.gauged .levels)) ∧
    (∀ item : Item, item.Shaped .any →
      (readAll Parser.item item.text).GivesBack item.secured (item.secured.gauged .levels)) ∧
    ∀ (file : String) (program : Program), program.Shaped .any →
      (readProgram file program.text).GivesBack program.secured
        (program.secured.gauged .levels) := by
  refine ⟨fun expr shaped => ?_, fun type shaped => ?_, fun pattern shaped => shaped.givesBack,
    fun contract shaped => ?_, fun item shaped => ?_, fun file program shaped => ?_⟩
  · have same : (expr.map Expr.secured).node.text = expr.node.text :=
      congrArg render expr.node.pieces_secured
    have secured : (expr.map Expr.secured).node.Shaped .bare .value := shaped.secured
    exact same ▸ secured.givesBack
  · have same : (type.map Ty.secured).node.text = type.node.text :=
      congrArg render type.node.pieces_secured
    have secured : (type.map Ty.secured).node.Shaped .bare := shaped.secured
    exact same ▸ secured.givesBack
  · have same : contract.secured.text = contract.text := congrArg render contract.pieces_secured
    exact same ▸ shaped.secured.givesBack
  · have same : item.secured.text = item.text := congrArg render item.pieces_secured
    exact same ▸ shaped.secured.givesBack
  · have same : program.secured.text = program.text := congrArg render program.pieces_secured
    exact same ▸ shaped.secured.givesBack file

/-- A sum that is the receiver of a member without being in parentheses. -/
def sumMember : Spanned Expr :=
  ⟨.field ⟨.binary ⟨.var "a", nowhere⟩ .add ⟨.int 1, nowhere⟩, nowhere⟩ ⟨"x", nowhere⟩, nowhere⟩

/-- A function whose contract and body are members of sums. -/
def sumMemberFunction : FunctionItem where
  attributes := []
  visibility := .hidden
  name := ⟨"f", nowhere⟩
  parameters := []
  resultName := none
  resultType := ⟨.primitive .i64, nowhere⟩
  contract := some (.clauses (some sumMember) none)
  body := sumMember
  span := nowhere

theorem givesBack_secured_of_sumMember :
    sumMember.node.text = "(a + 1).x" ∧
      (readExpr sumMember.node.text).GivesBack (sumMember.map Expr.secured) 4 ∧
      (readType (Ty.refined .i64 [sumMember]).text).GivesBack
        ⟨.refined .i64 [sumMember.map Expr.secured], nowhere⟩ 5 ∧
      (readPattern (Pattern.bind "a").text).GivesBack ⟨.bind "a", nowhere⟩ 0 ∧
      (readContract (Contract.clauses (some sumMember) none).text).GivesBack
        (some (.clauses (some (sumMember.map Expr.secured)) none)) 4 ∧
      (readAll Parser.item (Item.function sumMemberFunction).text).GivesBack
        (Item.function sumMemberFunction).secured 4 ∧
      (readProgram "a" (Program.mk [.function sumMemberFunction]).text).GivesBack
        ⟨[(Item.function sumMemberFunction).secured]⟩ 4 := by
  have a : IsName "a" := by decide +kernel
  have x : IsName "x" := by decide +kernel
  have f : IsName "f" := by decide +kernel
  have shaped : sumMember.node.Shaped .any .value :=
    ⟨trivial, ⟨trivial, trivial, a, .inl (by decide)⟩, x⟩
  have contract : (Contract.clauses (some sumMember) none).Shaped .any :=
    ⟨.inl rfl, by simpa using shaped, by simp⟩
  have item : (Item.function sumMemberFunction).Shaped .any :=
    ⟨List.forall_mem_nil _, f, List.forall_mem_nil _,
      fun _ member => absurd member (Option.not_mem_none _), trivial,
      by simpa [sumMemberFunction] using contract, shaped⟩
  have type : (Ty.refined .i64 [sumMember]).Shaped .any := ⟨by decide, shaped, trivial⟩
  obtain ⟨exprs, types, patterns, contracts, items, programs⟩ := givesBack_secured
  exact ⟨by decide +kernel, exprs _ shaped, types ⟨_, nowhere⟩ type,
    patterns ⟨_, nowhere⟩ a, contracts _ contract, items _ item,
    programs "a" ⟨[_]⟩ (List.forall_mem_singleton.mpr item)⟩

end ContractSyntax
