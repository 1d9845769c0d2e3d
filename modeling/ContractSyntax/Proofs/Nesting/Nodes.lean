/-
**How high the trees are that some levels of nesting allow.**

Two kinds of nodes are made without a level of their own: an assignment, and the block that the rest
of a block becomes. Each stands directly above or below a node that has opened a level, so that a tree
has at most two nodes on a way down for each level.

* `Derives.nodes_le`: every phrase, by the levels that reading it opens;
* `Program.Derives.nodes_le`: definitions and programs.
-/

import ContractSyntax.Proofs.Nesting.Gauge

namespace ContractSyntax

/-! ### Expressions and types -/

/-- How many nodes a phrase may have beyond two for each level. -/
def Phrase.slack : Phrase → Nat
  | tier _ | signed | suffixed | primary | type | subexpr | subtype | stated | field | arm => 0
  | expr | items _ => 1
  | binding _ | rest _ _ => 2

/-- A row is as high as twice its heights if its members are. -/
theorem gaugedAll_le_double {α : Type} {measure : α → Nat} {parts : List (Part α)}
    (each : ∀ part ∈ parts, measure part.value ≤ 2 * part.height) :
    gaugedAll measure (parts.map Part.value) ≤ 2 * highest (parts.map Part.height) := by
  induction parts with
  | nil => exact Nat.zero_le _
  | cons part parts continued =>
    have first := each part List.mem_cons_self
    have rest := continued fun other member => each other (List.mem_cons_of_mem _ member)
    simp only [gaugedAll, List.map_cons, highest_cons] at rest ⊢
    omega

/-- A phrase has at most two nodes on a way down for each level, and a few more. -/
theorem Derives.nodes_le {phrase : Phrase} {tokens : Tokens} {tree : phrase.Tree} {height : Nat}
    (derived : Derives phrase tokens tree height) :
    phrase.gauged .nodes tree ≤ 2 * height + phrase.slack := by
  induction derived with
  -- rows of parts
  | array _ _ _ _ _ each | call _ _ _ _ _ _ each | variantOf _ _ _ _ _ _ _ _ each
  | refined _ _ _ _ _ _ _ _ each =>
    exact Nat.le_trans (Nat.le_of_eq (gaugedExprs_eq _)) (gaugedAll_le_double each)
  | construct _ _ _ _ _ _ _ each =>
    exact Nat.le_trans (Nat.le_of_eq (gaugedFields_eq _)) (gaugedAll_le_double each)
  | matching _ _ _ _ _ _ _ subject each =>
    have row : gaugedAll (MatchArm.gauged .nodes) _ ≤ _ := gaugedAll_le_double each
    simp only [Phrase.gauged, exprGauged, Phrase.slack, Expr.gauged, gaugedArms_eq] at subject ⊢
    omega
  | methodCall _ _ _ _ _ _ _ _ receiver each =>
    have row : gaugedAll (exprGauged .nodes) _ ≤ _ := gaugedAll_le_double each
    simp only [Phrase.gauged, Phrase.slack, Expr.gauged, gaugedExprs_eq, Gauge.nodes]
      at receiver row ⊢
    omega
  -- bindings and blocks
  | binding | bindingRest =>
    simp only [Phrase.gauged, Phrase.slack, gauged_binding] at *
    omega
  | block _ stop _ items => exact Nat.le_trans (Nat.le_of_eq (gauged_block stop.start _ _)) items
  | @remainder _ next _ _ _ _ _ _ items =>
    exact Nat.succ_le_succ (Nat.le_trans (Nat.le_of_eq (gauged_block next _ _)) items)
  | reference _ isMutable _ _ target => cases isMutable <;> exact target
  -- everything else is as high as its parts
  | _ =>
    simp only [Phrase.gauged, exprGauged, typeGauged, Phrase.slack, Expr.gauged, Ty.gauged,
      MatchArm.gauged, FieldValue.gauged, Gauge.nodes, gaugedAll, Option.toList_none,
      Option.toList_some, List.map_nil, List.map_cons, highest_nil, highest_cons] at *
    omega

/-! ### Definitions and programs -/

section Definitions

variable {tokens : Tokens} {height : Nat}

/-- A row is as high as twice its height if its members are. -/
theorem Row.le_double {α : Type} {meaning : Tokens → α → Nat → Prop} {measure : α → Nat}
    {values : List α}
    (each : ∀ tokens value height, meaning tokens value height → measure value ≤ 2 * height)
    (row : Row meaning tokens values height) : gaugedAll measure values ≤ 2 * height := by
  obtain ⟨parts, _, rfl, rfl, derived⟩ := row
  exact gaugedAll_le_double fun part member => each _ _ _ (derived part member)

theorem Several.le_double {α : Type} {meaning : Tokens → α → Nat → Prop} {measure : α → Nat}
    {values : List α}
    (each : ∀ tokens value height, meaning tokens value height → measure value ≤ 2 * height)
    (several : Several meaning tokens values height) : gaugedAll measure values ≤ 2 * height := by
  induction several with
  | none => exact Nat.zero_le _
  | more first _ continued =>
    have bound := each _ _ _ first
    simp only [gaugedAll, List.map_cons, highest_cons] at continued ⊢
    omega

theorem TypedName.Derives.nodes_le {typed : TypedName} (derived : typed.Derives tokens height) :
    typed.gauged .nodes ≤ 2 * height := by
  obtain ⟨name, colon, type⟩ := derived
  exact type.nodes_le

theorem Attribute.Derives.nodes_le {mark : Attribute} (derived : mark.Derives tokens height) :
    mark.gauged .nodes ≤ 2 * height := by
  cases derived with
  | bare => exact Nat.zero_le _
  | applied start opened stop name row =>
    exact row.le_double fun _ _ _ derived => derived.nodes_le

theorem Variant.Derives.nodes_le {variant : Variant} (derived : variant.Derives tokens height) :
    variant.gauged .nodes ≤ 2 * height := by
  cases derived with
  | bare => exact Nat.zero_le _
  | parts name start stop row => exact row.le_double fun _ _ _ derived => derived.nodes_le

theorem Clause.nodes_le {word : Keyword} {clause : Option (Spanned Expr)}
    (derived : Clause word tokens clause height) :
    gaugedAll (exprGauged .nodes) clause.toList ≤ 2 * height := by
  cases derived with
  | absent => exact Nat.zero_le _
  | present start derived => exact Nat.max_le.mpr ⟨derived.nodes_le, Nat.zero_le _⟩

theorem Contract.Derives.nodes_le {contract : Option Contract}
    (derived : Contract.Derives tokens contract height) :
    gaugedAll (Contract.gauged .nodes) contract.toList ≤ 2 * height := by
  cases derived with
  | conditions start opened stop row =>
    refine Nat.max_le.mpr ⟨row.le_double fun _ _ _ derived => ?_, Nat.zero_le _⟩
    obtain ⟨labelled, condition⟩ := derived
    exact condition.nodes_le
  | @clauses _ _ pre post height depth derivedPre derivedPost =>
    have first := derivedPre.nodes_le
    have second := derivedPost.nodes_le
    rw [gauged_ofClauses]
    omega

theorem Parser.Header.Derives.nodes_le {following : Span} {header : Parser.Header}
    (derived : header.Derives following tokens height) :
    gaugedAll (Attribute.gauged .nodes) header.attributes ≤ 2 * height := by
  obtain ⟨several, _⟩ := derived
  exact several.le_double fun _ _ _ derived => derived.nodes_le

/-- A definition has at most two nodes on a way down for each level. -/
theorem Item.Derives.nodes_le {item : Item} (derived : item.Derives tokens height) :
    item.gauged .nodes ≤ 2 * height := by
  cases derived with
  | use => exact Nat.zero_le _
  | struct word opened stop name headed row =>
    have marks := headed.nodes_le
    have fields := row.le_double fun _ _ _ derived => derived.nodes_le
    simp only [Item.gauged]
    omega
  | enum word opened stop name headed row =>
    have marks := headed.nodes_le
    have variants := row.le_double fun _ _ _ derived => derived.nodes_le
    simp only [Item.gauged]
    omega
  | function word opened closed arrow equal stop name headed row named type contract body =>
    have marks := headed.nodes_le
    have parameters := row.le_double fun _ _ _ derived => derived.nodes_le
    have result := type.nodes_le
    have conditions := contract.nodes_le
    have value := body.nodes_le
    simp only [Phrase.gauged, Phrase.slack] at result value
    simp only [Item.gauged]
    omega

/-- A program has at most two nodes on a way down for each level. -/
theorem Program.Derives.nodes_le {program : Program} (derived : program.Derives tokens height) :
    program.gauged .nodes ≤ 2 * height :=
  derived.le_double fun _ _ _ derived => derived.nodes_le

end Definitions

end ContractSyntax
