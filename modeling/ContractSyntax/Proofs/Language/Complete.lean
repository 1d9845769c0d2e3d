/-
**Every sentence is derived.**

A sentence of the grammar makes up some tree at some height, over its tokens at no place. Which tree
that is does not matter here: the induction is on how the sentence is spelled, and what is carried
through it is one statement for each category.

* `Sentence.means`: the statement for the category of a sentence.
-/

import ContractSyntax.Proofs.Language.Grammar
import ContractSyntax.Proofs.Reading

namespace ContractSyntax

/-! ### What a category stands for -/

/-- Some derivation of a phrase over the tokens at no place. -/
def Derived (phrase : Phrase) (tokens : List Token) : Prop :=
  ∃ tree height, Derives phrase (bare tokens) tree height

theorem Derived.of {phrase : Phrase} {tokens : List Token} {places : Tokens} {tree : phrase.Tree}
    {height : Nat} (derived : Derives phrase places tree height) (same : places = bare tokens) :
    Derived phrase tokens :=
  ⟨tree, height, same ▸ derived⟩

/-- A name at no place. -/
abbrev unplaced (text : String) : Name := ⟨text, nowhere⟩

/-- What is derived over the tokens of a phrase of each category. -/
def Category.Means : Category → List Token → Prop
  | name, tokens => ∃ text, tokens = [.ident text]
  | literal, tokens =>
    Derived .primary tokens ∧ ∃ pattern, Pattern.Derives (bare tokens) pattern
  | list member, tokens =>
    ∃ parts : List (List Token), Commas (parts.map bare) (bare tokens) ∧
      ∀ part ∈ parts, member.Means part
  | type, tokens => Derived .subtype tokens
  | pattern, tokens => ∃ pattern, Pattern.Derives (bare tokens) pattern
  | expr, tokens => Derived .subexpr tokens
  | unbound, tokens => Derived .subexpr tokens ∧ tokens.head? ≠ some (.keyword .let_)
  | tier power, tokens => Derived (.tier power) tokens
  | unary, tokens => Derived .signed tokens
  | suffixed, tokens => Derived .suffixed tokens
  | primary, tokens => Derived .primary tokens
  | mutability, tokens => ∃ isMutable, Marks .mut_ isMutable (bare tokens)
  | typing, tokens => Derived .stated tokens
  | arm, tokens => Derived .arm tokens
  | field, tokens => Derived .field tokens
  | statements, tokens => Derived (.items 0) tokens
  | label, tokens => ∃ label, Labelled (bare tokens) label
  | condition, tokens => ∃ condition height, Condition.Derives (bare tokens) condition height
  | clause word, tokens => ∃ found height, Clause word (bare tokens) found height
  | contract, tokens => ∃ contract height, Contract.Derives (bare tokens) contract height
  | .mark, tokens => ∃ mark height, Attribute.Derives (bare tokens) mark height
  | attributes, tokens => ∃ marks height, Several Attribute.Derives (bare tokens) marks height
  | visibility, tokens => ∃ isShown, Marks .pub isShown (bare tokens)
  | typedName, tokens => ∃ typed height, TypedName.Derives (bare tokens) typed height
  | variant, tokens => ∃ variant height, Variant.Derives (bare tokens) variant height
  | path, tokens =>
    ∃ (first : Name) (rest : List (Span × Name)), bare tokens = first.ident :: pathTokens rest
  | item, tokens => ∃ item height, Item.Derives (bare tokens) item height
  | program, tokens => ∃ program height, Program.Derives (bare tokens) program height

/-- What is derived over the tokens of the elements of a rule. -/
def Means : List Element → List Token → Prop
  | [], tokens => tokens = []
  | .token token :: elements, tokens => ∃ others, tokens = token :: others ∧ Means elements others
  | .of category :: elements, tokens =>
    ∃ first second, tokens = first ++ second ∧ category.Means first ∧ Means elements second

/-! ### Lists -/

section Lists

variable {α : Type} {meaning : Tokens → α → Nat → Prop} {tokens : List Token}

theorem exists_parts {parts : List (List Token)}
    (each : ∀ part ∈ parts, ∃ value height, meaning (bare part) value height) :
    ∃ made : List (Part α), made.map Part.tokens = parts.map bare ∧
      ∀ part ∈ made, meaning part.tokens part.value part.height := by
  induction parts with
  | nil => exact ⟨[], rfl, nofun⟩
  | cons part parts continued =>
    obtain ⟨value, height, derived⟩ := each part List.mem_cons_self
    obtain ⟨made, same, others⟩ :=
      continued fun other member => each other (List.mem_cons_of_mem _ member)
    refine ⟨⟨bare part, value, height⟩ :: made, by simp [same], fun other member => ?_⟩
    rcases List.mem_cons.mp member with rfl | member
    · exact derived
    · exact others other member

/-- The members of a list with their trees and heights. -/
theorem parts_of_means (meaning : Tokens → α → Nat → Prop) {member : Category}
    (means : (Category.list member).Means tokens)
    (each : ∀ tokens, member.Means tokens → ∃ value height, meaning (bare tokens) value height) :
    ∃ parts : List (Part α), Commas (parts.map Part.tokens) (bare tokens) ∧
      ∀ part ∈ parts, meaning part.tokens part.value part.height := by
  obtain ⟨parts, row, members⟩ := means
  obtain ⟨made, same, derived⟩ := exists_parts fun part inside => each part (members part inside)
  exact ⟨made, same ▸ row, derived⟩

theorem row_of_means {member : Category} (means : (Category.list member).Means tokens)
    (each : ∀ tokens, member.Means tokens → ∃ value height, meaning (bare tokens) value height) :
    ∃ values height, Row meaning (bare tokens) values height := by
  obtain ⟨parts, row, derived⟩ := parts_of_means meaning means each
  exact ⟨_, _, parts, row, rfl, rfl, derived⟩

theorem names_of_means (means : (Category.list .name).Means tokens) :
    ∃ names : List Name, Commas (names.map fun name => [name.ident]) (bare tokens) := by
  obtain ⟨parts, row, spelled⟩ :=
    parts_of_means (fun passed (name : Name) _ => passed = [name.ident]) means <| by
      rintro _ ⟨text, rfl⟩
      exact ⟨unplaced text, 0, rfl⟩
  have same : parts.map Part.tokens = parts.map fun part => [part.value.ident] :=
    List.map_congr_left spelled
  refine ⟨parts.map Part.value, ?_⟩
  rw [List.map_map]
  exact same ▸ row

end Lists

/-! ### Rules -/

theorem Derived.unary (operator : UnaryOperator) {tokens : List Token}
    (derived : Derived .signed tokens) : Derived .signed (operator.tokens ++ tokens) := by
  obtain ⟨_, _, derived⟩ := derived
  exact ⟨_, _, derived.unary_bare operator⟩

/-- A tier holds what binds more tightly. -/
theorem Derives.lower {power higher : Nat} {tokens : Tokens} {tree : Spanned Expr} {height : Nat}
    (derived : Derives (.tier higher) tokens tree height) (less : power ≤ higher) :
    Derives (.tier power) tokens tree height := by
  cases derived with
  | single _ derived => exact .single power derived
  | binary operator tight span first second =>
    exact .binary operator (Nat.le_trans less tight) span first second

variable {tokens : List Token} {body : List Element}

theorem Rule.means_literal (rule : Rule .literal body) (means : Means body tokens) :
    Category.literal.Means tokens := by
  cases rule with
  | int fits =>
    obtain ⟨_, rfl, rfl⟩ := means
    have read := readInt64?_eq_some_iff.mpr ⟨fits, rfl⟩
    exact ⟨⟨_, _, .int read nowhere⟩, _, .int read nowhere⟩
  | float finite =>
    obtain ⟨_, rfl, rfl⟩ := means
    obtain ⟨value, read⟩ := Option.isSome_iff_exists.mp finite
    exact ⟨⟨_, _, .float read nowhere⟩, _, .float read nowhere⟩
  | string content =>
    obtain ⟨_, rfl, rfl⟩ := means
    exact ⟨⟨_, _, .string content nowhere⟩, _, .string content nowhere⟩
  | true =>
    obtain ⟨_, rfl, rfl⟩ := means
    exact ⟨⟨_, _, .true nowhere⟩, _, .true nowhere⟩
  | false =>
    obtain ⟨_, rfl, rfl⟩ := means
    exact ⟨⟨_, _, .false nowhere⟩, _, .false nowhere⟩

theorem Rule.means_list {member : Category} (rule : Rule (.list member) body)
    (means : Means body tokens) : (Category.list member).Means tokens := by
  cases rule with
  | emptyList =>
    obtain rfl := means
    exact ⟨[], .none, nofun⟩
  | endOfList =>
    obtain ⟨first, _, rfl, derived, rfl⟩ := means
    exact ⟨[first], by simpa using Commas.last (bare first), by simpa using derived⟩
  | moreOfList =>
    obtain ⟨first, _, rfl, derived, _, rfl, others, _, rfl, ⟨parts, row, each⟩, rfl⟩ := means
    refine ⟨first :: parts, by simpa using Commas.more (bare first) nowhere row, fun part inside => ?_⟩
    rcases List.mem_cons.mp inside with rfl | inside
    · exact derived
    · exact each part inside

theorem Rule.means_type (rule : Rule .type body) (means : Means body tokens) :
    Category.type.Means tokens := by
  cases rule with
  | reference =>
    obtain ⟨_, rfl, mark, _, rfl, ⟨isMutable, marked⟩, target, _, rfl, ⟨_, _, derived⟩, rfl⟩ := means
    exact .of (.nestedType (.reference nowhere isMutable marked derived)) (by simp)
  | @arrayType digits fits =>
    obtain ⟨_, rfl, element, _, rfl, ⟨_, _, derived⟩, _, rfl, _, rfl, _, rfl, rfl⟩ := means
    have read : readUInt64? digits = some (UInt64.ofNat _) := if_pos fits
    exact .of (.nestedType (.arrayType nowhere nowhere nowhere nowhere read derived)) (by simp)
  | primitive base =>
    obtain ⟨_, rfl, rfl⟩ := means
    exact .of (.nestedType (.primitive base nowhere)) rfl
  | @refined base refinable =>
    obtain ⟨_, rfl, _, rfl, constraints, _, rfl, listed, _, rfl, rfl⟩ := means
    obtain ⟨parts, row, derived⟩ := parts_of_means _ listed fun _ means => means
    have refines : base.isRefinable := by
      cases base <;> first | rfl | exact absurd (Eq.refl _) refinable
    exact .of (.nestedType (.refined base refines nowhere nowhere nowhere parts row derived))
      (by simp)
  | unitType =>
    obtain ⟨_, rfl, _, rfl, rfl⟩ := means
    exact .of (.nestedType (.unitType nowhere nowhere)) rfl
  | namedType =>
    obtain ⟨_, _, rfl, ⟨text, rfl⟩, rfl⟩ := means
    exact .of (.nestedType (.named (unplaced text))) rfl

theorem Rule.means_pattern (rule : Rule .pattern body) (means : Means body tokens) :
    Category.pattern.Means tokens := by
  cases rule with
  | wildcard =>
    obtain ⟨_, rfl, rfl⟩ := means
    exact ⟨_, .wildcard nowhere⟩
  | literalPattern =>
    obtain ⟨_, _, rfl, ⟨_, derived⟩, rfl⟩ := means
    rwa [List.append_nil]
  | namePattern =>
    obtain ⟨_, _, rfl, ⟨text, rfl⟩, rfl⟩ := means
    exact ⟨_, .bind (unplaced text)⟩
  | variantPattern =>
    obtain ⟨_, _, rfl, ⟨text, rfl⟩, _, rfl, _, _, rfl, ⟨chosen, rfl⟩, rfl⟩ := means
    exact ⟨_, .variant (unplaced text) (unplaced chosen) nowhere⟩
  | variantPatternOf =>
    obtain ⟨_, _, rfl, ⟨text, rfl⟩, _, rfl, _, _, rfl, ⟨chosen, rfl⟩, _, rfl, bindings, _, rfl,
      listed, _, rfl, rfl⟩ := means
    obtain ⟨names, row⟩ := names_of_means listed
    have derived :=
      Pattern.Derives.variantOf (unplaced text) (unplaced chosen) nowhere nowhere nowhere row
    exact ⟨_, by simpa using derived⟩

theorem Rule.means_expr (rule : Rule .expr body) (means : Means body tokens) :
    Category.expr.Means tokens := by
  cases rule with
  | binding =>
    obtain ⟨_, rfl, mark, _, rfl, ⟨isMutable, marked⟩, _, _, rfl, ⟨text, rfl⟩, stated, _, rfl,
      ⟨_, _, type⟩, _, rfl, given, _, rfl, ⟨_, _, value⟩, _, rfl, others, _, rfl, ⟨_, _, body⟩,
      rfl⟩ := means
    exact .of (.nested (.binding nowhere nowhere nowhere isMutable (unplaced text) marked type value
      body)) (by simp)
  | unbound =>
    obtain ⟨first, _, rfl, ⟨derived, _⟩, rfl⟩ := means
    rwa [List.append_nil]

/-- A ladder of operators does not begin with `let`. -/
theorem Derived.unbound {power : Nat} (derived : Derived (.tier power) tokens) :
    tokens.head? ≠ some (.keyword .let_) := by
  obtain ⟨_, _, derived⟩ := derived
  have other : (bare tokens ++ []).head?.map Spanned.node ≠ some (.keyword .let_) :=
    derived.opened.head rfl
  rwa [List.append_nil, ← List.head?_map, map_node_bare] at other

theorem Rule.means_unbound (rule : Rule .unbound body) (means : Means body tokens) :
    Category.unbound.Means tokens := by
  cases rule with
  | conditional =>
    obtain ⟨_, rfl, asked, _, rfl, ⟨_, _, condition⟩, _, rfl, chosen, _, rfl, ⟨_, _, yes⟩, _, rfl,
      other, _, rfl, ⟨_, _, no⟩, rfl⟩ := means
    exact ⟨.of (.nested (.conditional nowhere nowhere nowhere condition yes no)) (by simp), nofun⟩
  | matching =>
    obtain ⟨_, rfl, before, _, rfl, ⟨_, _, subject⟩, _, rfl, arms, _, rfl, listed, _, rfl, rfl⟩ :=
      means
    obtain ⟨parts, row, derived⟩ := parts_of_means _ listed fun _ means => means
    exact ⟨.of (.nested (.matching nowhere nowhere nowhere subject parts row derived)) (by simp),
      nofun⟩
  | whileLoop =>
    obtain ⟨_, rfl, asked, _, rfl, ⟨_, _, condition⟩, _, rfl, repeated, _, rfl, ⟨_, _, body⟩, _,
      rfl, rfl⟩ := means
    exact ⟨.of (.nested (.whileLoop nowhere nowhere nowhere condition body)) (by simp), nofun⟩
  | forLoop =>
    obtain ⟨_, rfl, _, _, rfl, ⟨text, rfl⟩, _, rfl, ranged, _, rfl, ⟨_, _, range⟩, _, rfl, repeated,
      _, rfl, ⟨_, _, body⟩, _, rfl, rfl⟩ := means
    exact ⟨.of (.nested (.forLoop nowhere nowhere nowhere nowhere (unplaced text) range body))
      (by simp), nofun⟩
  | block =>
    obtain ⟨_, rfl, inner, _, rfl, ⟨⟨statements, last⟩, _, items⟩, _, rfl, rfl⟩ := means
    exact ⟨.of (.nested (.block nowhere nowhere items)) (by simp), nofun⟩
  | operators =>
    obtain ⟨first, _, rfl, derived, rfl⟩ := means
    rw [List.append_nil]
    refine ⟨?_, derived.unbound⟩
    obtain ⟨_, _, derived⟩ := derived
    exact .of (.nested (.operators derived)) rfl

theorem Rule.means_statements (rule : Rule .statements body) (means : Means body tokens) :
    Category.statements.Means tokens := by
  have other {tokens : List Token} (unbound : tokens.head? ≠ some (.keyword .let_)) :
      (bare tokens).head?.map Spanned.node ≠ some (.keyword .let_) := by
    rwa [← List.head?_map, map_node_bare]
  cases rule with
  | noStatements =>
    obtain rfl := means
    exact .of (.nothing 0) rfl
  | value =>
    obtain ⟨first, _, rfl, ⟨⟨_, _, derived⟩, unbound⟩, rfl⟩ := means
    exact .of (.value 0 (other unbound) derived) (by simp)
  | statement =>
    obtain ⟨first, _, rfl, ⟨⟨_, _, derived⟩, unbound⟩, _, rfl, others, _, rfl,
      ⟨⟨statements, last⟩, _, continued⟩, rfl⟩ := means
    exact .of (.statement nowhere (other unbound) derived continued) (by simp)
  | assignment =>
    obtain ⟨_, _, rfl, ⟨text, rfl⟩, _, rfl, given, _, rfl, ⟨_, _, value⟩, _, rfl, others, _, rfl,
      ⟨⟨statements, last⟩, _, continued⟩, rfl⟩ := means
    exact .of (.assign (unplaced text) nowhere nowhere value continued) (by simp)
  | bindingRest =>
    obtain ⟨_, rfl, mark, _, rfl, ⟨isMutable, marked⟩, _, _, rfl, ⟨text, rfl⟩, stated, _, rfl,
      ⟨_, _, type⟩, _, rfl, given, _, rfl, ⟨_, _, value⟩, _, rfl, others, _, rfl,
      ⟨⟨statements, last⟩, _, items⟩, rfl⟩ := means
    obtain ⟨body, height, rest⟩ : ∃ body height, Derives (.rest 0 0) (bare others) body height := by
      by_cases lone : statements = [] ∧ last.isSome
      · obtain ⟨rfl, present⟩ := lone
        obtain ⟨last, rfl⟩ := Option.isSome_iff_exists.mp present
        exact ⟨_, _, .lone 0 items⟩
      · refine ⟨_, _, .remainder 0 items ?_⟩
        by_cases none : statements = []
        · exact .inr (by simpa using fun present => lone ⟨none, present⟩)
        · exact .inl none
    exact .of (.bound (.bindingRest nowhere nowhere nowhere isMutable (unplaced text) marked type
      value rest)) (by simp)

theorem Rule.means_tier {power : Nat} (rule : Rule (.tier power) body)
    (means : Means body tokens) : (Category.tier power).Means tokens := by
  cases rule with
  | binary operator =>
    obtain ⟨before, _, rfl, ⟨_, _, left⟩, _, rfl, after, _, rfl, ⟨_, _, right⟩, rfl⟩ := means
    exact .of (.binary operator (Nat.le_refl _) nowhere left right) (by simp)
  | tighter infixes =>
    obtain ⟨first, _, rfl, ⟨_, _, derived⟩, rfl⟩ := means
    exact .of (derived.lower (Nat.le_succ power)) (by simp)
  | tightest =>
    obtain ⟨first, _, rfl, ⟨_, _, derived⟩, rfl⟩ := means
    exact .of (.single _ derived) (by simp)

theorem Rule.means_unary (rule : Rule .unary body) (means : Means body tokens) :
    Category.unary.Means tokens := by
  cases rule with
  | least =>
    obtain ⟨_, rfl, _, rfl, rfl⟩ := means
    exact .of (.least nowhere nowhere) rfl
  | negate =>
    obtain ⟨_, rfl, operand, _, rfl, derived, rfl⟩ := means
    rw [List.append_nil]
    exact derived.unary .negate
  | not =>
    obtain ⟨_, rfl, operand, _, rfl, derived, rfl⟩ := means
    rw [List.append_nil]
    exact derived.unary .not
  | referTo =>
    obtain ⟨_, rfl, operand, _, rfl, derived, rfl⟩ := means
    rw [List.append_nil]
    exact derived.unary .reference
  | referMutably =>
    obtain ⟨_, rfl, _, rfl, operand, _, rfl, derived, rfl⟩ := means
    rw [List.append_nil]
    exact derived.unary .mutableReference
  | dereference =>
    obtain ⟨_, rfl, operand, _, rfl, derived, rfl⟩ := means
    rw [List.append_nil]
    exact derived.unary .dereference
  | unsigned =>
    obtain ⟨operand, _, rfl, ⟨_, _, derived⟩, rfl⟩ := means
    exact .of (.unsigned derived) (by simp)

theorem Rule.means_suffixed (rule : Rule .suffixed body) (means : Means body tokens) :
    Category.suffixed.Means tokens := by
  cases rule with
  | state moment =>
    obtain ⟨before, _, rfl, ⟨_, _, receiver⟩, _, rfl, _, rfl, rfl⟩ := means
    exact .of (.state moment nowhere nowhere receiver) (by simp)
  | methodCall =>
    obtain ⟨before, _, rfl, ⟨_, _, receiver⟩, _, rfl, _, _, rfl, ⟨text, rfl⟩, _, rfl, given, _, rfl,
      listed, _, rfl, rfl⟩ := means
    obtain ⟨parts, row, derived⟩ := parts_of_means _ listed fun _ means => means
    exact .of (.methodCall (unplaced text) nowhere nowhere nowhere receiver parts row derived)
      (by simp)
  | access =>
    obtain ⟨before, _, rfl, ⟨_, _, receiver⟩, _, rfl, _, _, rfl, ⟨text, rfl⟩, rfl⟩ := means
    exact .of (.member (unplaced text) nowhere receiver) (by simp)
  | index =>
    obtain ⟨before, _, rfl, ⟨_, _, receiver⟩, _, rfl, inner, _, rfl, ⟨_, _, position⟩, _, rfl,
      rfl⟩ := means
    exact .of (.index nowhere nowhere receiver position) (by simp)
  | operand =>
    obtain ⟨first, _, rfl, ⟨_, _, derived⟩, rfl⟩ := means
    exact .of (.operand derived) (by simp)

theorem Rule.means_primary (rule : Rule .primary body) (means : Means body tokens) :
    Category.primary.Means tokens := by
  cases rule with
  | literalOperand =>
    obtain ⟨first, _, rfl, ⟨derived, _⟩, rfl⟩ := means
    rwa [List.append_nil]
  | ret =>
    obtain ⟨_, rfl, rfl⟩ := means
    exact .of (.ret nowhere) rfl
  | it =>
    obtain ⟨_, rfl, rfl⟩ := means
    exact .of (.it nowhere) rfl
  | unit =>
    obtain ⟨_, rfl, _, rfl, rfl⟩ := means
    exact .of (.unit nowhere nowhere) rfl
  | paren =>
    obtain ⟨_, rfl, inner, _, rfl, ⟨_, _, derived⟩, _, rfl, rfl⟩ := means
    exact .of (.paren nowhere nowhere derived) (by simp)
  | array =>
    obtain ⟨_, rfl, elements, _, rfl, listed, _, rfl, rfl⟩ := means
    obtain ⟨parts, row, derived⟩ := parts_of_means _ listed fun _ means => means
    exact .of (.array nowhere nowhere parts row derived) (by simp)
  | construct =>
    obtain ⟨_, rfl, _, _, rfl, ⟨text, rfl⟩, _, rfl, fields, _, rfl, listed, _, rfl, rfl⟩ := means
    obtain ⟨parts, row, derived⟩ := parts_of_means _ listed fun _ means => means
    exact .of (.construct nowhere nowhere nowhere (unplaced text) parts row derived) (by simp)
  | var =>
    obtain ⟨_, _, rfl, ⟨text, rfl⟩, rfl⟩ := means
    exact .of (.var (unplaced text)) rfl
  | call =>
    obtain ⟨_, _, rfl, ⟨text, rfl⟩, _, rfl, given, _, rfl, listed, _, rfl, rfl⟩ := means
    obtain ⟨parts, row, derived⟩ := parts_of_means _ listed fun _ means => means
    exact .of (.call (unplaced text) nowhere nowhere parts row derived) (by simp)
  | variantOperand =>
    obtain ⟨_, _, rfl, ⟨text, rfl⟩, _, rfl, _, _, rfl, ⟨chosen, rfl⟩, rfl⟩ := means
    exact .of (.variant (unplaced text) (unplaced chosen) nowhere) rfl
  | variantOperandOf =>
    obtain ⟨_, _, rfl, ⟨text, rfl⟩, _, rfl, _, _, rfl, ⟨chosen, rfl⟩, _, rfl, given, _, rfl, listed,
      _, rfl, rfl⟩ := means
    obtain ⟨parts, row, derived⟩ := parts_of_means _ listed fun _ means => means
    exact .of (.variantOf (unplaced text) (unplaced chosen) nowhere nowhere nowhere parts row
      derived) (by simp)

theorem Rule.means_contract (rule : Rule .contract body) (means : Means body tokens) :
    Category.contract.Means tokens := by
  cases rule with
  | conditions =>
    obtain ⟨_, rfl, _, rfl, conditions, _, rfl, listed, _, rfl, rfl⟩ := means
    obtain ⟨values, height, row⟩ := row_of_means listed fun _ means => means
    have derived := Contract.Derives.conditions nowhere nowhere nowhere row
    exact ⟨_, _, by simpa using derived⟩
  | clauses =>
    obtain ⟨before, _, rfl, ⟨_, _, pre⟩, after, _, rfl, ⟨_, _, post⟩, rfl⟩ := means
    have derived := Contract.Derives.clauses pre post
    exact ⟨_, _, by simpa using derived⟩

theorem Rule.means_mark (rule : Rule .mark body) (means : Means body tokens) :
    Category.mark.Means tokens := by
  cases rule with
  | mark =>
    obtain ⟨_, rfl, _, _, rfl, ⟨text, rfl⟩, rfl⟩ := means
    exact ⟨_, _, .bare nowhere (unplaced text)⟩
  | markOf =>
    obtain ⟨_, rfl, _, _, rfl, ⟨text, rfl⟩, _, rfl, given, _, rfl, listed, _, rfl, rfl⟩ := means
    obtain ⟨values, height, row⟩ := row_of_means listed fun _ means => means
    have derived := Attribute.Derives.applied nowhere nowhere nowhere (unplaced text) row
    exact ⟨_, _, by simpa using derived⟩

theorem Rule.means_variant (rule : Rule .variant body) (means : Means body tokens) :
    Category.variant.Means tokens := by
  cases rule with
  | variant =>
    obtain ⟨_, _, rfl, ⟨text, rfl⟩, rfl⟩ := means
    exact ⟨_, _, .bare (unplaced text)⟩
  | variantOf =>
    obtain ⟨_, _, rfl, ⟨text, rfl⟩, _, rfl, parts, _, rfl, listed, _, rfl, rfl⟩ := means
    obtain ⟨values, height, row⟩ := row_of_means listed fun _ means => means
    have derived := Variant.Derives.parts (unplaced text) nowhere nowhere row
    exact ⟨_, _, by simpa using derived⟩

/-- Attributes and a visibility make up a header. -/
theorem exists_header {marks shown : List Token} (following : Span)
    (attributes : Category.attributes.Means marks) (visibility : Category.visibility.Means shown) :
    ∃ (header : Parser.Header) (height : Nat),
      header.Derives following (bare marks ++ bare shown) height := by
  obtain ⟨_, height, several⟩ := attributes
  obtain ⟨isShown, marked⟩ := visibility
  exact ⟨_, height, .mk several marked⟩

theorem Rule.means_item (rule : Rule .item body) (means : Means body tokens) :
    Category.item.Means tokens := by
  cases rule with
  | use =>
    obtain ⟨_, rfl, path, _, rfl, ⟨first, rest, spelled⟩, _, rfl, rfl⟩ := means
    have derived := Item.Derives.use nowhere nowhere first rest
    exact ⟨_, _, by simpa [spelled] using derived⟩
  | struct =>
    obtain ⟨marks, _, rfl, attributes, shown, _, rfl, visibility, _, rfl, _, _, rfl, ⟨text, rfl⟩, _,
      rfl, fields, _, rfl, listed, _, rfl, rfl⟩ := means
    obtain ⟨header, _, headed⟩ := exists_header nowhere attributes visibility
    obtain ⟨values, _, row⟩ := row_of_means listed fun _ means => means
    have derived := Item.Derives.struct nowhere nowhere nowhere (unplaced text) headed row
    exact ⟨_, _, by simpa using derived⟩
  | enum =>
    obtain ⟨marks, _, rfl, attributes, shown, _, rfl, visibility, _, rfl, _, _, rfl, ⟨text, rfl⟩, _,
      rfl, variants, _, rfl, listed, _, rfl, rfl⟩ := means
    obtain ⟨header, _, headed⟩ := exists_header nowhere attributes visibility
    obtain ⟨values, _, row⟩ := row_of_means listed fun _ means => means
    have derived := Item.Derives.enum nowhere nowhere nowhere (unplaced text) headed row
    exact ⟨_, _, by simpa using derived⟩
  | function =>
    obtain ⟨marks, _, rfl, attributes, shown, _, rfl, visibility, _, rfl, _, _, rfl, ⟨text, rfl⟩, _,
      rfl, parameters, _, rfl, listed, _, rfl, _, rfl, labelled, _, rfl, ⟨_, label⟩, typed, _, rfl,
      ⟨_, _, type⟩, contracted, _, rfl, ⟨_, _, contract⟩, _, rfl, given, _, rfl, ⟨_, _, body⟩, _,
      rfl, rfl⟩ := means
    obtain ⟨header, _, headed⟩ := exists_header nowhere attributes visibility
    obtain ⟨values, _, row⟩ := row_of_means listed fun _ means => means
    have derived := Item.Derives.function nowhere nowhere nowhere nowhere nowhere nowhere
      (unplaced text) headed row label type contract body
    exact ⟨_, _, by simpa using derived⟩

/-- What the elements of a rule stand for makes up what its category stands for. -/
theorem Rule.means {category : Category} (rule : Rule category body) (means : Means body tokens) :
    category.Means tokens := by
  cases category with
  | name =>
    cases rule
    obtain ⟨_, rfl, rfl⟩ := means
    exact ⟨_, rfl⟩
  | literal => exact rule.means_literal means
  | list => exact rule.means_list means
  | type => exact rule.means_type means
  | pattern => exact rule.means_pattern means
  | expr => exact rule.means_expr means
  | unbound => exact rule.means_unbound means
  | tier => exact rule.means_tier means
  | unary => exact rule.means_unary means
  | suffixed => exact rule.means_suffixed means
  | primary => exact rule.means_primary means
  | mutability =>
    cases rule with
    | mutable =>
      obtain ⟨_, rfl, rfl⟩ := means
      exact ⟨.true, rfl⟩
    | immutable =>
      obtain rfl := means
      exact ⟨.false, rfl⟩
  | typing =>
    cases rule with
    | annotated =>
      obtain ⟨_, rfl, typed, _, rfl, ⟨_, _, derived⟩, rfl⟩ := means
      exact .of (.stated nowhere derived) (by simp)
    | unannotated =>
      obtain rfl := means
      exact .of .unstated rfl
  | arm =>
    cases rule
    obtain ⟨before, _, rfl, ⟨_, pattern⟩, _, rfl, after, _, rfl, ⟨_, _, body⟩, rfl⟩ := means
    exact .of (.arm nowhere pattern body) (by simp)
  | field =>
    cases rule
    obtain ⟨_, _, rfl, ⟨text, rfl⟩, _, rfl, given, _, rfl, ⟨_, _, value⟩, rfl⟩ := means
    exact .of (.field (unplaced text) nowhere value) (by simp)
  | statements => exact rule.means_statements means
  | label =>
    cases rule with
    | labelled =>
      obtain ⟨_, _, rfl, ⟨text, rfl⟩, _, rfl, rfl⟩ := means
      exact ⟨_, .present (unplaced text) nowhere⟩
    | unlabelled =>
      obtain rfl := means
      exact ⟨_, .absent⟩
  | condition =>
    cases rule
    obtain ⟨before, _, rfl, ⟨_, label⟩, given, _, rfl, ⟨_, _, derived⟩, rfl⟩ := means
    exact ⟨_, _, by simpa using Condition.Derives.mk label derived⟩
  | clause word =>
    cases rule with
    | clause =>
      obtain ⟨_, rfl, given, _, rfl, ⟨_, _, derived⟩, rfl⟩ := means
      have clause : Clause word _ _ _ := .present nowhere derived
      exact ⟨_, _, by simpa using clause⟩
    | noClause =>
      obtain rfl := means
      exact ⟨_, _, .absent⟩
  | contract => exact rule.means_contract means
  | mark => exact rule.means_mark means
  | attributes =>
    cases rule with
    | attributes =>
      obtain ⟨mark, _, rfl, ⟨_, _, first⟩, others, _, rfl, ⟨_, _, several⟩, rfl⟩ := means
      exact ⟨_, _, by simpa using Several.more first several⟩
    | noAttributes =>
      obtain rfl := means
      exact ⟨_, _, .none⟩
  | visibility =>
    cases rule with
    | shown =>
      obtain ⟨_, rfl, rfl⟩ := means
      exact ⟨.true, rfl⟩
    | hidden =>
      obtain rfl := means
      exact ⟨.false, rfl⟩
  | typedName =>
    cases rule
    obtain ⟨_, _, rfl, ⟨text, rfl⟩, _, rfl, typed, _, rfl, ⟨_, _, type⟩, rfl⟩ := means
    exact ⟨_, _, by simpa using TypedName.Derives.mk (unplaced text) nowhere type⟩
  | variant => exact rule.means_variant means
  | path =>
    cases rule with
    | path =>
      obtain ⟨_, _, rfl, ⟨text, rfl⟩, _, rfl, others, _, rfl, ⟨first, rest, spelled⟩, rfl⟩ := means
      exact ⟨unplaced text, (nowhere, first) :: rest, by simp [spelled, pathTokens]⟩
    | endOfPath =>
      obtain ⟨_, _, rfl, ⟨text, rfl⟩, rfl⟩ := means
      exact ⟨unplaced text, [], rfl⟩
  | item => exact rule.means_item means
  | program =>
    cases rule with
    | program =>
      obtain ⟨first, _, rfl, ⟨item, _, derived⟩, others, _, rfl, ⟨⟨items⟩, _, several⟩, rfl⟩ := means
      exact ⟨⟨item :: items⟩, _, by simpa [Program.Derives] using Several.more derived several⟩
    | endOfProgram =>
      obtain rfl := means
      exact ⟨⟨[]⟩, _, .none⟩

/-! ### Sentences -/

theorem Spells.means {elements : List Element} (spelled : Spells elements tokens) :
    Means elements tokens := by
  induction spelled with
  | nothing => rfl
  | token token _ continued => exact ⟨_, rfl, continued⟩
  | of rule _ _ inner continued => exact ⟨_, _, rfl, rule.means inner, continued⟩

/-- Over the tokens of every sentence there is a derivation. -/
theorem Sentence.means {category : Category} (sentence : Sentence category tokens) :
    category.Means tokens := by
  obtain ⟨body, rule, spelled⟩ := sentence
  exact rule.means spelled.means

end ContractSyntax
