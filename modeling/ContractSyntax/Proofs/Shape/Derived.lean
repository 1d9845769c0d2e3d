/-
**What is derived is in shape.**

A name, a string or a number is one token, and has its shape from it; that an operand binds as tightly
as its place demands is known of every derived phrase. What is left are the statements of a block: the
only rule that makes an assignment makes a statement of it, and an expression becomes a statement only
where the word `let` does not come first.

* `Derives.shaped`: for expressions and types, at every phrase of the grammar;
* `Item.Derives.shaped`, `Program.Derives.shaped`: definitions and programs.
-/

import ContractSyntax.Proofs.Printing.Legible
import ContractSyntax.Proofs.Shape.Tree

namespace ContractSyntax

/-! ### Literals, names and operands -/

theorem isIntLiteral_of_read {digits : String} {value : Int64}
    (read : readInt64? digits = some value) : IsIntLiteral value :=
  .inl (nonneg_of_readInt64? read)

theorem isLiteral_of_read {digits : String} {value : Binary64}
    (read : readBinary64? digits = some value) : value.IsLiteral :=
  finite_of_readBinary64? read

/-- The name of a token that has the shape of a name. -/
theorem isName_of_ident {name : Name} (wellFormed : name.ident.node.WellFormed) : IsName name.node :=
  isName_iff.mpr wellFormed

section Operands

variable {tokens : Tokens} {operand : Spanned Expr} {height : Nat}

theorem Derives.bare_of_tier {power : Nat} (positive : 0 < power) (infixes : power ≤ unaryPower)
    (derived : Derives (.tier power) tokens operand height) : Demand.bare power operand.node := by
  have binds : min power unaryPower ≤ operand.node.power := derived.binds
  rw [Nat.min_eq_left infixes] at binds
  exact Demand.bare_of_le positive binds

theorem Derives.bare_left {operator : BinaryOperator}
    (derived : Derives (.tier operator.power) tokens operand height) :
    Demand.bare operator.power operand.node :=
  derived.bare_of_tier operator.one_le_power (Nat.le_succ_of_le operator.power_le)

theorem Derives.bare_right {operator : BinaryOperator}
    (derived : Derives (.tier (operator.power + 1)) tokens operand height) :
    Demand.bare (operator.power + 1) operand.node :=
  derived.bare_of_tier (Nat.succ_pos _) (Nat.succ_le_succ operator.power_le)

theorem Derives.bare_operand (derived : Derives .signed tokens operand height) :
    Demand.bare unaryPower operand.node :=
  Demand.bare_of_le (by decide) derived.binds

theorem Derives.bare_receiver (derived : Derives .suffixed tokens operand height) :
    Demand.bare operandPower operand.node :=
  Demand.bare_of_le (by decide) (Nat.le_of_eq derived.binds.symm)

end Operands

/-- An expression in shape is a statement in shape unless it is a binding. -/
theorem Expr.Shaped.statement {demand : Demand} {expr : Expr} (shaped : expr.Shaped demand .value)
    (unbound : ¬ expr.isBinding = true) : expr.Shaped demand .statement := by
  cases expr with
  | binding => exact absurd rfl unbound
  | assign => cases shaped.1
  | block _ last => cases last <;> exact shaped
  | variant _ _ given => cases given <;> exact shaped
  | _ => exact shaped

/-! ### Phrases -/

/-- Whether the tree of a phrase is in shape. -/
def Phrase.Shaped : (phrase : Phrase) → phrase.Tree → Prop
  | .expr, tree | .subexpr, tree | .tier _, tree | .signed, tree | .suffixed, tree | .primary, tree
  | .binding _, tree | .rest _ _, tree => tree.node.Shaped .bare .value
  | .field, tree | .arm, tree => tree.Shaped .bare
  | .type, tree | .subtype, tree => tree.node.Shaped .bare
  | .stated, tree => ∀ type ∈ tree, type.node.Shaped .bare
  | .items _, (statements, last) =>
    (∀ statement ∈ statements, statement.node.Shaped .bare .statement) ∧
      ∀ expr ∈ last, expr.node.Shaped .bare .value

/-- The names of a row. -/
theorem Commas.names {names : List Name} {tokens : Tokens}
    (row : Commas (names.map fun name => [name.ident]) tokens) (wellFormed : tokens.WellFormed) :
    ∀ name ∈ names, IsName name.node := fun _ member =>
  isName_of_ident (row.wellFormed wellFormed _ (List.mem_map_of_mem member) _ List.mem_cons_self)

theorem Commas.shaped {tokens : Tokens} {parts : List (Part (Spanned Expr))}
    (row : Commas (parts.map Part.tokens) tokens) (wellFormed : tokens.WellFormed)
    (each : ∀ part ∈ parts, part.tokens.WellFormed → Phrase.subexpr.Shaped part.value) :
    exprsShaped .bare .value (parts.map Part.value) :=
  exprsShaped_iff.mpr (row.forall_value wellFormed each)

theorem Pattern.Derives.shaped {tokens : Tokens} {pattern : Spanned Pattern}
    (derived : Pattern.Derives tokens pattern) (wellFormed : tokens.WellFormed) :
    pattern.node.Shaped := by
  cases derived with
  | int read => exact nonneg_of_readInt64? read
  | float read => exact isLiteral_of_read read
  | string => exact wellFormed _ List.mem_cons_self
  | true | false | wildcard => trivial
  | bind => exact isName_of_ident (wellFormed _ List.mem_cons_self)
  | variant =>
    simp only [Tokens.wellFormed_cons] at wellFormed
    obtain ⟨enumeration, _, chosen, _⟩ := wellFormed
    exact ⟨isName_of_ident enumeration, isName_of_ident chosen, by rintro _ ⟨⟩⟩
  | variantOf _ _ _ _ _ row =>
    simp only [Tokens.wellFormed_cons, Tokens.wellFormed_append] at wellFormed
    obtain ⟨enumeration, _, chosen, _, names, _⟩ := wellFormed
    refine ⟨isName_of_ident enumeration, isName_of_ident chosen, ?_⟩
    rintro _ ⟨⟩
    exact row.names names

/-- The tree of a phrase is in shape. -/
theorem Derives.shaped {phrase : Phrase} {tokens : Tokens} {tree : phrase.Tree} {height : Nat}
    (derived : Derives phrase tokens tree height) (wellFormed : tokens.WellFormed) :
    phrase.Shaped tree := by
  induction derived with
  -- operands
  | int read => exact isIntLiteral_of_read read
  | float read => exact isLiteral_of_read read
  | string => exact wellFormed _ List.mem_cons_self
  | true | false | ret | it | unit | primitive | unitType => trivial
  | var | named => exact isName_of_ident (wellFormed _ List.mem_cons_self)
  | paren _ _ _ inner =>
    simp only [Tokens.wellFormed_cons, Tokens.wellFormed_append] at wellFormed
    exact inner wellFormed.2.1
  | array _ _ _ row _ each =>
    simp only [Tokens.wellFormed_cons, Tokens.wellFormed_append] at wellFormed
    exact row.shaped wellFormed.2.1 each
  | construct _ _ _ _ _ row _ each =>
    simp only [Tokens.wellFormed_cons, Tokens.wellFormed_append] at wellFormed
    obtain ⟨_, struct, _, fields, _⟩ := wellFormed
    exact ⟨isName_of_ident struct, fieldsShaped_iff.mpr (row.forall_value fields each)⟩
  | call _ _ _ _ row _ each =>
    simp only [Tokens.wellFormed_cons, Tokens.wellFormed_append] at wellFormed
    obtain ⟨function, _, given, _⟩ := wellFormed
    exact ⟨isName_of_ident function, row.shaped given each⟩
  | variant =>
    simp only [Tokens.wellFormed_cons] at wellFormed
    obtain ⟨enumeration, _, chosen, _⟩ := wellFormed
    exact ⟨isName_of_ident enumeration, isName_of_ident chosen⟩
  | variantOf _ _ _ _ _ _ row _ each =>
    simp only [Tokens.wellFormed_cons, Tokens.wellFormed_append] at wellFormed
    obtain ⟨enumeration, _, chosen, _, given, _⟩ := wellFormed
    exact ⟨isName_of_ident enumeration, isName_of_ident chosen, row.shaped given each⟩
  | field _ _ _ value =>
    simp only [Tokens.wellFormed_cons] at wellFormed
    exact ⟨isName_of_ident wellFormed.1, value wellFormed.2.2⟩
  -- suffixes
  | state _ _ _ derived receiver =>
    simp only [Tokens.wellFormed_append] at wellFormed
    exact ⟨derived.bare_receiver, receiver wellFormed.1⟩
  | member _ _ derived receiver =>
    simp only [Tokens.wellFormed_cons, Tokens.wellFormed_append] at wellFormed
    obtain ⟨before, _, name, _⟩ := wellFormed
    exact ⟨derived.bare_receiver, receiver before, isName_of_ident name⟩
  | methodCall _ _ _ _ derived _ row _ receiver each =>
    simp only [Tokens.wellFormed_cons, Tokens.wellFormed_append] at wellFormed
    obtain ⟨before, _, method, _, given, _⟩ := wellFormed
    exact ⟨derived.bare_receiver, receiver before, isName_of_ident method, row.shaped given each⟩
  | index _ _ derived _ receiver position =>
    simp only [Tokens.wellFormed_cons, Tokens.wellFormed_append] at wellFormed
    obtain ⟨before, _, inner, _⟩ := wellFormed
    exact ⟨derived.bare_receiver, receiver before, position inner⟩
  -- operators
  | least => exact .inr rfl
  | unary _ _ _ _ derived operand =>
    simp only [Tokens.wellFormed_cons, Tokens.wellFormed_append] at wellFormed
    exact ⟨derived.bare_operand, operand wellFormed.2.2⟩
  | binary _ _ _ first second left right =>
    simp only [Tokens.wellFormed_cons, Tokens.wellFormed_append] at wellFormed
    obtain ⟨before, _, after⟩ := wellFormed
    exact ⟨first.bare_left, second.bare_right, left before, right after⟩
  -- constructs
  | conditional _ _ _ _ _ _ condition yes no =>
    simp only [Tokens.wellFormed_cons, Tokens.wellFormed_append] at wellFormed
    obtain ⟨_, asked, _, chosen, _, other⟩ := wellFormed
    exact ⟨condition asked, yes chosen, no other⟩
  | binding _ _ _ _ _ _ _ _ _ stated value body
  | bindingRest _ _ _ _ _ _ _ _ _ stated value body =>
    simp only [Tokens.wellFormed_cons, Tokens.wellFormed_append] at wellFormed
    obtain ⟨_, _, name, typed, _, valued, _, rest⟩ := wellFormed
    exact shaped_binding.mpr
      ⟨rfl, isName_of_ident name, stated typed, value valued, body rest⟩
  | matching _ _ _ _ _ row _ subject each =>
    simp only [Tokens.wellFormed_cons, Tokens.wellFormed_append] at wellFormed
    obtain ⟨_, before, _, arms, _⟩ := wellFormed
    exact ⟨subject before, armsShaped_iff.mpr (row.forall_value arms each)⟩
  | arm _ pattern _ body =>
    simp only [Tokens.wellFormed_cons, Tokens.wellFormed_append] at wellFormed
    exact ⟨pattern.shaped wellFormed.1, body wellFormed.2.2⟩
  | whileLoop _ _ _ _ _ condition body =>
    simp only [Tokens.wellFormed_cons, Tokens.wellFormed_append] at wellFormed
    obtain ⟨_, asked, _, inner, _⟩ := wellFormed
    exact ⟨condition asked, body inner⟩
  | forLoop _ _ _ _ _ _ _ range body =>
    simp only [Tokens.wellFormed_cons, Tokens.wellFormed_append] at wellFormed
    obtain ⟨_, name, _, ranged, _, inner, _⟩ := wellFormed
    exact ⟨isName_of_ident name, range ranged, body inner⟩
  | block _ _ _ inner =>
    simp only [Tokens.wellFormed_cons, Tokens.wellFormed_append] at wellFormed
    exact shaped_block.mpr (inner wellFormed.2.1)
  -- blocks
  | nothing => exact ⟨List.forall_mem_nil _, by rintro _ ⟨⟩⟩
  | value _ _ _ expr | bound _ expr =>
    refine ⟨List.forall_mem_nil _, ?_⟩
    rintro _ ⟨⟩
    exact expr wellFormed
  | statement _ unbound derived _ expr others =>
    simp only [Tokens.wellFormed_cons, Tokens.wellFormed_append] at wellFormed
    have first := (expr wellFormed.1).statement (derived.not_isBinding unbound)
    obtain ⟨rest, last⟩ := others wellFormed.2.2
    exact ⟨List.forall_mem_cons.mpr ⟨first, rest⟩, last⟩
  | assign _ _ _ _ _ value others =>
    simp only [Tokens.wellFormed_cons, Tokens.wellFormed_append] at wellFormed
    obtain ⟨target, _, valued, _, continued⟩ := wellFormed
    obtain ⟨rest, last⟩ := others continued
    exact ⟨List.forall_mem_cons.mpr ⟨⟨rfl, isName_of_ident target, value valued⟩, rest⟩, last⟩
  | lone _ _ inner => exact (inner wellFormed).2 _ rfl
  | remainder _ _ _ inner => exact shaped_block.mpr (inner wellFormed)
  -- types
  | unstated => rintro _ ⟨⟩
  | stated _ _ type =>
    simp only [Tokens.wellFormed_cons] at wellFormed
    rintro _ ⟨⟩
    exact type wellFormed.2
  | reference _ isMutable _ _ target =>
    simp only [Tokens.wellFormed_cons, Tokens.wellFormed_append] at wellFormed
    cases isMutable <;> exact target wellFormed.2.2
  | arrayType _ _ _ _ _ _ element =>
    simp only [Tokens.wellFormed_cons, Tokens.wellFormed_append] at wellFormed
    exact element wellFormed.2.1
  | refined base refinable _ _ _ _ row _ each =>
    simp only [Tokens.wellFormed_cons, Tokens.wellFormed_append] at wellFormed
    refine ⟨?_, row.shaped wellFormed.2.2.1 each⟩
    rintro rfl
    cases refinable
  -- phrases that are their part
  | operand _ inner | unsigned _ inner | single _ _ inner | nested _ inner | operators _ inner
  | nestedType _ inner => exact inner wellFormed

/-! ### Definitions -/

section Definitions

variable {places : Tokens} {height : Nat}

theorem Row.shaped {values : List (Spanned Expr)}
    (row : Row (Derives .subexpr) places values height) (wellFormed : places.WellFormed) :
    ∀ value ∈ values, value.node.Shaped .bare .value :=
  row.forall_value wellFormed fun _ _ _ derived => derived.shaped

theorem Several.forall_value {α : Type} {meaning : Tokens → α → Nat → Prop} {values : List α}
    (several : Several meaning places values height) (wellFormed : places.WellFormed)
    {holds : α → Prop}
    (each : ∀ places value height, meaning places value height → places.WellFormed → holds value) :
    ∀ value ∈ values, holds value := by
  induction several with
  | none => exact List.forall_mem_nil _
  | more first _ continued =>
    simp only [Tokens.wellFormed_append] at wellFormed
    exact List.forall_mem_cons.mpr ⟨each _ _ _ first wellFormed.1, continued wellFormed.2⟩

theorem TypedName.Derives.shaped {typed : TypedName}
    (derived : TypedName.Derives places typed height) (wellFormed : places.WellFormed) :
    typed.Shaped .bare := by
  obtain ⟨name, colon, type⟩ := derived
  simp only [Tokens.wellFormed_cons] at wellFormed
  exact ⟨isName_of_ident wellFormed.1, type.shaped wellFormed.2.2⟩

theorem Attribute.Derives.shaped {mark : Attribute} (derived : Attribute.Derives places mark height)
    (wellFormed : places.WellFormed) : mark.Shaped .bare := by
  cases derived with
  | bare start name =>
    simp only [Tokens.wellFormed_cons] at wellFormed
    exact ⟨isName_of_ident wellFormed.2.1, by rintro _ ⟨⟩⟩
  | applied start opened stop name row =>
    simp only [Tokens.wellFormed_cons, Tokens.wellFormed_append] at wellFormed
    obtain ⟨_, name, _, given, _⟩ := wellFormed
    refine ⟨isName_of_ident name, ?_⟩
    rintro _ ⟨⟩
    exact row.shaped given

theorem Labelled.shaped {label : Option Name} (labelled : Labelled places label)
    (wellFormed : places.WellFormed) : ∀ name ∈ label, IsName name.node := by
  cases labelled with
  | absent => rintro _ ⟨⟩
  | present name =>
    rintro _ ⟨⟩
    exact isName_of_ident (wellFormed _ List.mem_cons_self)

theorem Condition.Derives.shaped {condition : Condition}
    (derived : Condition.Derives places condition height) (wellFormed : places.WellFormed) :
    condition.Shaped .bare := by
  obtain ⟨labelled, expr⟩ := derived
  simp only [Tokens.wellFormed_append] at wellFormed
  exact ⟨labelled.shaped wellFormed.1, expr.shaped wellFormed.2⟩

theorem Clause.shaped {word : Keyword} {clause : Option (Spanned Expr)}
    (derived : Clause word places clause height) (wellFormed : places.WellFormed) :
    ∀ condition ∈ clause, condition.node.Shaped .bare .value := by
  cases derived with
  | absent => rintro _ ⟨⟩
  | present start derived =>
    simp only [Tokens.wellFormed_cons] at wellFormed
    rintro _ ⟨⟩
    exact derived.shaped wellFormed.2

/-- A contract of clauses in shape is in shape, if there is one. -/
theorem shaped_ofClauses {demand : Demand} {pre post : Option (Spanned Expr)}
    (first : ∀ condition ∈ pre, condition.node.Shaped demand .value)
    (second : ∀ condition ∈ post, condition.node.Shaped demand .value) :
    ∀ contract ∈ Contract.ofClauses pre post, contract.Shaped demand := by
  cases pre with
  | some pre =>
    rintro _ ⟨⟩
    exact ⟨.inl rfl, first, second⟩
  | none =>
    cases post with
    | none => rintro _ ⟨⟩
    | some post =>
      rintro _ ⟨⟩
      exact ⟨.inr rfl, first, second⟩

theorem Contract.Derives.shaped {contract : Option Contract}
    (derived : Contract.Derives places contract height) (wellFormed : places.WellFormed) :
    ∀ conditions ∈ contract, conditions.Shaped .bare := by
  cases derived with
  | conditions start opened stop row =>
    simp only [Tokens.wellFormed_cons, Tokens.wellFormed_append] at wellFormed
    rintro _ ⟨⟩
    exact row.forall_value wellFormed.2.2.1 fun _ _ _ derived => derived.shaped
  | clauses derivedPre derivedPost =>
    simp only [Tokens.wellFormed_append] at wellFormed
    exact shaped_ofClauses (derivedPre.shaped wellFormed.1) (derivedPost.shaped wellFormed.2)

theorem Variant.Derives.shaped {variant : Variant} (derived : Variant.Derives places variant height)
    (wellFormed : places.WellFormed) : variant.Shaped .bare := by
  cases derived with
  | bare name => exact ⟨isName_of_ident (wellFormed _ List.mem_cons_self), by rintro _ ⟨⟩⟩
  | parts name start stop row =>
    simp only [Tokens.wellFormed_cons, Tokens.wellFormed_append] at wellFormed
    obtain ⟨name, _, parts, _⟩ := wellFormed
    refine ⟨isName_of_ident name, ?_⟩
    rintro _ ⟨⟩
    exact row.forall_value parts fun _ _ _ derived => derived.shaped

theorem Parser.Header.Derives.shaped {following : Span} {header : Parser.Header}
    (derived : header.Derives following places height) (wellFormed : places.WellFormed) :
    ∀ mark ∈ header.attributes, mark.Shaped .bare := by
  obtain ⟨several, _⟩ := derived
  simp only [Tokens.wellFormed_append] at wellFormed
  exact several.forall_value wellFormed.1 fun _ _ _ derived => derived.shaped

/-- The names of a path after the first. -/
theorem isName_of_path {rest : List (Span × Name)} (wellFormed : (pathTokens rest).WellFormed) :
    ∀ name ∈ rest.map (·.2), IsName name.node := by
  refine List.forall_mem_map.mpr fun part member => isName_of_ident (wellFormed _ ?_)
  exact List.mem_flatMap.mpr ⟨part, member, by simp⟩

/-- A definition is in shape. -/
theorem Item.Derives.shaped {item : Item} (derived : Item.Derives places item height)
    (wellFormed : places.WellFormed) : item.Shaped .bare := by
  cases derived with
  | use start stop first rest =>
    simp only [Tokens.wellFormed_cons, Tokens.wellFormed_append] at wellFormed
    obtain ⟨_, first, others, _⟩ := wellFormed
    refine ⟨List.cons_ne_nil _ _, ?_⟩
    exact List.forall_mem_cons.mpr ⟨isName_of_ident first, isName_of_path others⟩
  | struct word opened stop name headed row =>
    simp only [Tokens.wellFormed_cons, Tokens.wellFormed_append] at wellFormed
    obtain ⟨before, _, name, _, fields, _⟩ := wellFormed
    exact ⟨headed.shaped before, isName_of_ident name,
      row.forall_value fields fun _ _ _ derived => derived.shaped⟩
  | enum word opened stop name headed row =>
    simp only [Tokens.wellFormed_cons, Tokens.wellFormed_append] at wellFormed
    obtain ⟨before, _, name, _, variants, _⟩ := wellFormed
    exact ⟨headed.shaped before, isName_of_ident name,
      row.forall_value variants fun _ _ _ derived => derived.shaped⟩
  | function word opened closed arrow equal stop name headed row named derivedType derivedContract
      derivedBody =>
    simp only [Tokens.wellFormed_cons, Tokens.wellFormed_append] at wellFormed
    obtain ⟨before, _, name, _, listed, _, _, labelled, typed, contracted, _, inner, _⟩ := wellFormed
    exact ⟨headed.shaped before, isName_of_ident name,
      row.forall_value listed fun _ _ _ derived => derived.shaped, named.shaped labelled,
      derivedType.shaped typed, derivedContract.shaped contracted, derivedBody.shaped inner⟩

/-- A program is in shape. -/
theorem Program.Derives.shaped {program : Program} (derived : program.Derives places height)
    (wellFormed : places.WellFormed) : program.Shaped .bare :=
  Several.forall_value derived wellFormed fun _ _ _ derived => derived.shaped

end Definitions

end ContractSyntax
