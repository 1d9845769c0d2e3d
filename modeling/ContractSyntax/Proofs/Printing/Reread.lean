/-
**Trees in shape are read from their printed text.**

A tree in shape whose operands bind as tightly as their places demand has a derivation over its
printed tokens, and its printed text is legible. So the text is read as the tree but for its spans,
unless it opens more levels than there may be. How many it opens is measured on the tree.

* `Piece.Spelled`: pieces whose tokens have the shapes of their kinds;
* `Logged.GivesBack`: what comes of reading a printed tree;
* `Expr.Shaped.givesBack`, `Item.Shaped.givesBack`, `Program.Shaped.givesBack`: trees of each kind.
-/

import ContractSyntax.Proofs.Printing.Seams
import ContractSyntax.Proofs.Printing.ShapedItem

namespace ContractSyntax

open Piece

/-! ### Pieces that are spelled -/

namespace Piece

/-- Whether each token among some pieces has the shape of its kind. -/
def Spelled (pieces : List Piece) : Prop := Tokens.WellFormed (bare (tokens pieces))

@[simp] theorem spelled_nil : Spelled [] := Tokens.wellFormed_nil

@[simp] theorem spelled_append {first second : List Piece} :
    Spelled (first ++ second) ↔ Spelled first ∧ Spelled second := by
  rw [Spelled, tokens_append, bare_append, Tokens.wellFormed_append]
  rfl

@[simp] theorem spelled_cons_token {content : Token} {rest : List Piece} :
    Spelled (token content :: rest) ↔ content.WellFormed ∧ Spelled rest := Tokens.wellFormed_cons

@[simp] theorem spelled_cons_space {rest : List Piece} : Spelled (space :: rest) ↔ Spelled rest :=
  Iff.rfl

@[simp] theorem spelled_cons_newline {rest : List Piece} :
    Spelled (newline :: rest) ↔ Spelled rest := Iff.rfl

@[simp] theorem spelled_cons_sign {symbol : Symbol} {rest : List Piece} :
    Spelled (sign symbol :: rest) ↔ Spelled rest := by simp [sign]

@[simp] theorem spelled_cons_word {keyword : Keyword} {rest : List Piece} :
    Spelled (word keyword :: rest) ↔ Spelled rest := by simp [word]

@[simp] theorem spelled_cons_ident {text : String} {rest : List Piece} :
    Spelled (ident text :: rest) ↔ IsName text ∧ Spelled rest := by simp [ident, isName_iff]

theorem Legible.spelled {pieces : List Piece} (legible : Legible pieces) : Spelled pieces := by
  induction pieces with
  | nil => exact spelled_nil
  | cons piece rest continued =>
    cases piece with
    | token => exact spelled_cons_token.mpr ⟨legible.1, continued legible.2.2⟩
    | space | newline => exact continued legible

section Lists

variable {lists : List (List Piece)} (each : ∀ list ∈ lists, Spelled list)

include each

theorem spelled_separated {separator : List Piece} (between : Spelled separator) :
    Spelled (separated separator lists) := by
  induction lists with
  | nil => exact spelled_nil
  | cons list lists continued =>
    have here := each list List.mem_cons_self
    cases lists with
    | nil => exact here
    | cons second rest =>
      exact spelled_append.mpr ⟨spelled_append.mpr ⟨here, between⟩,
        continued fun other member => each other (List.mem_cons_of_mem _ member)⟩

theorem spelled_commas : Spelled (commas lists) := spelled_separated each (by simp)

theorem spelled_parens : Spelled (parens lists) := by
  simpa [parens] using spelled_commas each

theorem spelled_braces : Spelled (braces lists) := by
  cases lists with
  | nil => simp [braces]
  | cons list lists => simpa [braces] using spelled_commas each

end Lists

theorem spelled_flatMap {α : Type} {values : List α} {pieces : α → List Piece}
    (each : ∀ value ∈ values, Spelled (pieces value)) : Spelled (values.flatMap pieces) := by
  induction values with
  | nil => exact spelled_nil
  | cons value values continued =>
    exact spelled_append.mpr ⟨each value List.mem_cons_self,
      continued fun other member => each other (List.mem_cons_of_mem _ member)⟩

end Piece

/-! ### Definitions are spelled -/

section Shaped

variable {demand : Demand}

theorem Expr.Shaped.spelled {expr : Expr} {role : Role} (shaped : expr.Shaped demand role) :
    Spelled expr.pieces := shaped.segment.legible.spelled

theorem Ty.Shaped.spelled {type : Ty} (shaped : type.Shaped demand) : Spelled type.pieces :=
  shaped.segment.legible.spelled

theorem spelled_label {label : Option Name} (named : ∀ name ∈ label, IsName name.node) :
    Spelled (labelPieces label) := by
  cases label with
  | none => exact spelled_nil
  | some label => simpa [labelPieces] using named label rfl

theorem Condition.Shaped.spelled {condition : Condition} (shaped : condition.Shaped demand) :
    Spelled condition.pieces := by
  rw [Condition.pieces_eq]
  exact spelled_append.mpr ⟨spelled_label shaped.1, shaped.2.spelled⟩

theorem Contract.Shaped.spelled {contract : Contract} (shaped : contract.Shaped demand) :
    Spelled contract.pieces := by
  cases contract with
  | conditions list =>
    have each : Spelled (braces (list.map Condition.pieces)) :=
      spelled_braces (List.forall_mem_map.mpr fun condition member => (shaped condition member).spelled)
    simpa [Contract.pieces] using each
  | clauses pre post =>
    obtain ⟨_, before, after⟩ := shaped
    refine spelled_separated (fun list member => ?_) (by simp)
    rcases List.mem_append.mp member with inside | inside
    · obtain ⟨expr, among, rfl⟩ := List.mem_map.mp inside
      simpa using (before expr (Option.mem_toList.mp among)).spelled
    · obtain ⟨expr, among, rfl⟩ := List.mem_map.mp inside
      simpa using (after expr (Option.mem_toList.mp among)).spelled

theorem Attribute.Shaped.spelled {mark : Attribute} (shaped : mark.Shaped demand) :
    Spelled mark.pieces := by
  obtain ⟨name, given, span⟩ := mark
  cases given with
  | none => simpa [Attribute.pieces, argumentPieces] using shaped.1
  | some given =>
    have each := spelled_parens (List.forall_mem_map.mpr fun expr member =>
      (shaped.2 given rfl expr member).spelled)
    simpa [Attribute.pieces, argumentPieces, exprPieces_eq, shaped.1] using each

theorem spelled_header {attributes : List Attribute} (visibility : Visibility)
    (shaped : ∀ mark ∈ attributes, mark.Shaped demand) :
    Spelled (headerPieces attributes visibility) := by
  refine spelled_append.mpr ⟨spelled_flatMap fun mark member => ?_, ?_⟩
  · simpa using (shaped mark member).spelled
  · cases visibility <;> simp

theorem TypedName.Shaped.spelled {typed : TypedName} (shaped : typed.Shaped demand) :
    Spelled typed.pieces := by
  simpa [TypedName.pieces] using ⟨shaped.1, shaped.2.spelled⟩

theorem Variant.Shaped.spelled {variant : Variant} (shaped : variant.Shaped demand) :
    Spelled variant.pieces := by
  obtain ⟨name, parts⟩ := variant
  cases parts with
  | none => simpa [Variant.pieces] using shaped.1
  | some parts =>
    have each := spelled_parens (List.forall_mem_map.mpr fun type member =>
      (shaped.2 parts rfl type member).spelled)
    simpa [Variant.pieces, shaped.1] using each

theorem Item.Shaped.spelled {item : Item} (shaped : item.Shaped demand) : Spelled item.pieces := by
  cases item with
  | use item =>
    have each : Spelled (separated [sign .colonColon] (item.path.map fun part => [ident part.node])) :=
      spelled_separated (List.forall_mem_map.mpr fun name member => by
        simpa using shaped.2 name member) (by simp)
    simpa [Item.pieces] using each
  | struct item =>
    obtain ⟨marks, name, fields⟩ := shaped
    have each := spelled_braces (List.forall_mem_map.mpr fun field member =>
      (fields field member).spelled)
    simpa [Item.pieces, name, each] using spelled_header item.visibility marks
  | enum item =>
    obtain ⟨marks, name, variants⟩ := shaped
    have each := spelled_braces (List.forall_mem_map.mpr fun variant member =>
      (variants variant member).spelled)
    simpa [Item.pieces, name, each] using spelled_header item.visibility marks
  | function item =>
    obtain ⟨marks, name, parameters, result, type, contract, body⟩ := shaped
    have each := spelled_parens (List.forall_mem_map.mpr fun parameter member =>
      (parameters parameter member).spelled)
    have agreed : Spelled (contractPieces item.contract) := by
      cases given : item.contract with
      | none => exact spelled_nil
      | some agreed => exact (contract agreed given).spelled
    simpa [Item.pieces_function, name, each, spelled_label result, type.spelled, agreed,
      body.spelled] using spelled_header item.visibility marks

theorem Program.Shaped.spelled {program : Program} (shaped : program.Shaped demand) :
    Spelled program.pieces :=
  spelled_flatMap fun item member => by simpa using (shaped item member).spelled

end Shaped

/-! ### Definitions are legible -/

theorem Contract.Shaped.legible {contract : Contract} (shaped : contract.Shaped .bare) :
    Legible contract.pieces := by
  have segment : Segment .separator .separator (contractPieces (erase contract)) :=
    shaped.derives.legible shaped.spelled
  rw [← contract.pieces_relocate .erasure]
  exact segment.legible

theorem Item.Shaped.legible {item : Item} (shaped : item.Shaped .bare) : Legible item.pieces := by
  rw [← item.pieces_relocate .erasure]
  exact (shaped.derives.legible shaped.spelled).legible

theorem Program.Shaped.legible {program : Program} (shaped : program.Shaped .bare) :
    Legible program.pieces := by
  rw [← program.pieces_relocate .erasure]
  exact shaped.derives.legible shaped.spelled

/-! ### Reading printed text -/

/-- Whether reading gives a tree but for its spans if there is room for some levels, and the nesting
is too deep otherwise. -/
def Logged.GivesBack {α : Type} [Relocate α] (read : Logged (Except SourceError α)) (tree : α)
    (levels : Nat) : Prop :=
  (levels ≤ nestingLimit ∧ ∃ found, read.value = .ok found ∧ erase found = erase tree) ∨
  (nestingLimit < levels ∧ ∃ error, read.value = .error (.syntactic error) ∧
    error.message = "nesting deeper than 256 levels")

/-- What a parser takes of the tokens of legible pieces is read in their text. -/
theorem readAll_givesBack {α : Type} [Relocate α] {parser : Parser α} {pieces : List Piece}
    {tree : α} {levels : Nat} (legible : Legible pieces)
    (moves : Parser.Moves .erasure parser parser)
    (takes : parser.Takes (bare (tokens pieces)) [] (erase tree) levels nestingLimit) :
    (readAll parser (render pieces)).GivesBack tree levels := by
  obtain ⟨places, lexed, same⟩ := tokenize_render legible
  obtain ⟨cursor, rfl, value⟩ := @readAll_value _ parser _ _ lexed
  rw [Logged.GivesBack, value]
  rcases takes.whole.placed moves.whole same with
    ⟨fits, found, started, erased⟩ | ⟨large, error, started, message⟩
  · exact .inl ⟨fits, found, by rw [started]; rfl, erased⟩
  · exact .inr ⟨large, error, by rw [started]; rfl, message⟩

theorem endsExpr_nil : EndsExpr [] := nofun

theorem Expr.Shaped.givesBack {expr : Spanned Expr} (shaped : expr.node.Shaped .bare .value) :
    (readExpr expr.node.text).GivesBack expr (exprGauged .levels expr) :=
  readAll_givesBack shaped.segment.legible .expression
    (shaped.derives.takes_expression (Nat.le_refl _) endsExpr_nil)

theorem Ty.Shaped.givesBack {type : Spanned Ty} (shaped : type.node.Shaped .bare) :
    (readType type.node.text).GivesBack type (typeGauged .levels type) :=
  readAll_givesBack shaped.segment.legible .type
    (shaped.derives_sub.takes_type (Nat.le_refl _) nofun)

theorem Pattern.Shaped.givesBack {pattern : Spanned Pattern} (shaped : pattern.node.Shaped) :
    (readPattern pattern.node.text).GivesBack pattern 0 :=
  readAll_givesBack shaped.segment.legible .pattern
    (Level.takes_pattern shaped.derives endsExpr_nil.operand.name)

theorem Contract.Shaped.givesBack {contract : Contract} (shaped : contract.Shaped .bare) :
    (readContract contract.text).GivesBack (some contract) (contract.gauged .levels) :=
  readAll_givesBack shaped.legible .contract?
    (shaped.derives.takes (Nat.le_refl _) ⟨endsExpr_nil, nofun, nofun, nofun⟩)

theorem Item.Shaped.givesBack {item : Item} (shaped : item.Shaped .bare) :
    (readAll Parser.item item.text).GivesBack item (item.gauged .levels) :=
  readAll_givesBack shaped.legible .item (shaped.derives.takes (Nat.le_refl _))

theorem Program.Shaped.givesBack (file : String) {program : Program}
    (shaped : program.Shaped .bare) :
    (readProgram file program.text).GivesBack program (program.gauged .levels) := by
  obtain ⟨places, lexed, same⟩ := tokenize_render shaped.legible
  have derived := shaped.derives
  rw [← same] at derived
  exact derived.read file lexed

end ContractSyntax
