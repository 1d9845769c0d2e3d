/-
**Beginnings: what can be completed to a sentence.**

`Starts` is `Spells` broken off at some point: the elements before it are spelled, the one at that
point may have been entered, to any depth, and nothing is said about those after it. A beginning
lists what is open in this way, and says nothing about how it could go on. That it always can is
proved from the grammar alone: every category that can be reached has a sentence.

* `Starts.append`, `Spells.starts`: a row is begun by its first part, or by all of that and the
  beginning of the rest;
* `Starts.completed`: every beginning can be completed;
* `BeginsSentence`: what is left of this without the derivation.
-/

import ContractSyntax.Proofs.Language.Sound

namespace ContractSyntax

/-- Tokens that are written for the elements of a rule, up to some point. -/
inductive Starts : List Element → List Token → Prop
  | stop (elements : List Element) : Starts elements []
  | token (token : Token) {elements : List Element} {tokens : List Token}
      (continued : Starts elements tokens) :
      Starts (.token token :: elements) (token :: tokens)
  | of {category : Category} {body elements : List Element} {first second : List Token}
      (rule : Rule category body) (inner : Spells body first)
      (continued : Starts elements second) :
      Starts (.of category :: elements) (first ++ second)
  | within {category : Category} {body elements : List Element} {tokens : List Token}
      (rule : Rule category body) (inner : Starts body tokens) :
      Starts (.of category :: elements) tokens

section Rows

variable {category : Category} {front back : List Element} {first second tokens : List Token}

/-- One row, and the beginning of another. -/
theorem Spells.starts (before : Spells front first) (after : Starts back second) :
    Starts (front ++ back) (first ++ second) := by
  induction before with
  | nothing => exact after
  | token token _ continued => exact .token token continued
  | of rule inner _ _ continued =>
    rw [List.append_assoc]
    exact .of rule inner continued

/-- What is spelled for a single category is a sentence of it. -/
theorem Spells.sentence (spelled : Spells [.of category] tokens) : Sentence category tokens := by
  generalize same : [Element.of category] = elements at spelled
  cases spelled with
  | nothing => cases same
  | token token _ => cases same
  | @of _ body _ _ _ rule inner continued =>
    cases same
    cases continued
    exact ⟨body, rule, by simpa using inner⟩

/-- The beginning of a row begins every longer one. -/
theorem Starts.append (begun : Starts front tokens) (back : List Element) :
    Starts (front ++ back) tokens := by
  induction begun with
  | stop elements => exact .stop _
  | token token _ continued => exact .token token continued
  | of rule inner _ continued => exact .of rule inner continued
  | within rule inner => exact .within rule inner

/-- A sentence in the place of its category, and the beginning of what follows it. -/
theorem Sentence.begins (sentence : Sentence category first) (continued : Starts back second) :
    Starts (.of category :: back) (first ++ second) := by
  obtain ⟨body, rule, inner⟩ := sentence
  exact .of rule inner continued

/-- A sentence begins what it may be followed by. -/
theorem Sentence.started (sentence : Sentence category tokens) : Starts (.of category :: back) tokens := by
  simpa using sentence.begins (.stop back)

/-- What begins a tier begins every tier below it. -/
theorem Starts.lower {power higher : Nat} (less : power ≤ higher) (infixes : higher ≤ unaryPower)
    (begun : Starts [.of (.tier higher)] tokens) : Starts [.of (.tier power)] tokens := by
  induction less with
  | refl => exact begun
  | step less continued => exact continued (by omega) (.within (.tighter (by omega)) begun)

end Rows

/-! ### Completion -/

/-- Whether the category has sentences: there is no operator above the last tier. -/
def Category.IsProductive : Category → Prop
  | .tier power => power ≤ unaryPower
  | .list member => member.IsProductive
  | _ => True

/-- Whether the element can be spelled. -/
def Element.IsProductive : Element → Prop
  | token _ => True
  | of category => category.IsProductive

/-- The members of a rule can be spelled if its category can be. -/
theorem Rule.isProductive {category : Category} {body : List Element} (rule : Rule category body)
    (productive : category.IsProductive) : ∀ element ∈ body, element.IsProductive := by
  cases rule with
  | binary operator =>
    have bound := operator.power_le
    simp [Element.IsProductive, Category.IsProductive, unaryPower]
    omega
  | tighter infixes =>
    simpa [Element.IsProductive, Category.IsProductive] using Nat.succ_le_of_lt infixes
  | _ => simp_all [Element.IsProductive, Category.IsProductive, unaryPower]

theorem Category.exists_sentence (category : Category) (productive : category.IsProductive) :
    ∃ tokens, Sentence category tokens := by
  have var := Sentence.name "x"
  have primary : Sentence .primary _ := ⟨_, .var, var.last⟩
  have suffixed : Sentence .suffixed _ := ⟨_, .operand, primary.last⟩
  have unary : Sentence .unary _ := ⟨_, .unsigned, suffixed.last⟩
  have unbound : Sentence .unbound _ := ⟨_, .operators, (unary.tier (by decide)).last⟩
  have expr : Sentence .expr _ := ⟨_, .unbound, unbound.last⟩
  have type : Sentence .type _ := ⟨_, .namedType, var.last⟩
  have pattern : Sentence .pattern _ := ⟨_, .namePattern, var.last⟩
  have label : Sentence .label [] := ⟨_, .unlabelled, .nothing⟩
  have noClause (word : Keyword) : Sentence (.clause word) [] := ⟨_, .noClause word, .nothing⟩
  have path : Sentence .path _ := ⟨_, .endOfPath, var.last⟩
  cases category with
  | name => exact ⟨_, var⟩
  | literal => exact ⟨_, _, .true, .token _ .nothing⟩
  | list member => exact ⟨_, _, .emptyList member, .nothing⟩
  | type => exact ⟨_, type⟩
  | pattern => exact ⟨_, pattern⟩
  | expr => exact ⟨_, expr⟩
  | unbound => exact ⟨_, unbound⟩
  | tier power => exact ⟨_, unary.tier productive⟩
  | unary => exact ⟨_, unary⟩
  | suffixed => exact ⟨_, suffixed⟩
  | primary => exact ⟨_, primary⟩
  | mutability => exact ⟨_, _, .immutable, .nothing⟩
  | typing => exact ⟨_, _, .unannotated, .nothing⟩
  | arm => exact ⟨_, _, .arm, pattern.before (.token _ expr.last)⟩
  | field => exact ⟨_, _, .field, var.before (.token _ expr.last)⟩
  | statements => exact ⟨_, _, .noStatements, .nothing⟩
  | label => exact ⟨_, label⟩
  | condition => exact ⟨_, _, .condition, label.before expr.last⟩
  | clause word => exact ⟨_, noClause word⟩
  | contract => exact ⟨_, _, .clauses, (noClause .pre).before (noClause .post).last⟩
  | mark => exact ⟨_, _, .mark, .token _ var.last⟩
  | attributes => exact ⟨_, _, .noAttributes, .nothing⟩
  | visibility => exact ⟨_, _, .hidden, .nothing⟩
  | typedName => exact ⟨_, _, .typedName, var.before (.token _ type.last)⟩
  | variant => exact ⟨_, _, .variant, var.last⟩
  | path => exact ⟨_, path⟩
  | item => exact ⟨_, _, .use, .token _ (path.before (.token _ .nothing))⟩
  | program => exact ⟨_, _, .endOfProgram, .nothing⟩

theorem Spells.exists_of_productive {elements : List Element}
    (productive : ∀ element ∈ elements, element.IsProductive) : ∃ tokens, Spells elements tokens := by
  induction elements with
  | nil => exact ⟨[], .nothing⟩
  | cons element elements continued =>
    obtain ⟨first, others⟩ := List.forall_mem_cons.mp productive
    obtain ⟨rest, spelled⟩ := continued others
    cases element with
    | token token => exact ⟨_, .token token spelled⟩
    | of category =>
      obtain ⟨tokens, sentence⟩ := category.exists_sentence first
      exact ⟨_, sentence.before spelled⟩

/-- Every beginning can be completed: what has been entered is closed from the inside out. -/
theorem Starts.completed {elements : List Element} {tokens : List Token}
    (begun : Starts elements tokens) (productive : ∀ element ∈ elements, element.IsProductive) :
    ∃ rest, Spells elements (tokens ++ rest) := by
  induction begun with
  | stop elements => exact Spells.exists_of_productive productive
  | token token _ continued =>
    obtain ⟨rest, spelled⟩ := continued (List.forall_mem_cons.mp productive).2
    exact ⟨rest, .token token spelled⟩
  | of rule inner _ continued =>
    obtain ⟨rest, spelled⟩ := continued (List.forall_mem_cons.mp productive).2
    refine ⟨rest, ?_⟩
    rw [List.append_assoc]
    exact .of rule inner spelled
  | within rule _ completed =>
    obtain ⟨entered, others⟩ := List.forall_mem_cons.mp productive
    obtain ⟨rest, inner⟩ := completed (rule.isProductive entered)
    obtain ⟨more, spelled⟩ := Spells.exists_of_productive others
    refine ⟨rest ++ more, ?_⟩
    rw [← List.append_assoc]
    exact .of rule inner spelled

/-- Whether a sentence of the category begins with these tokens. -/
def BeginsSentence (category : Category) (tokens : List Token) : Prop :=
  ∃ rest, Sentence category (tokens ++ rest)

namespace BeginsSentence

variable {category : Category} {first second tokens : List Token}

theorem of_starts (begun : Starts [.of category] tokens) (productive : category.IsProductive) :
    BeginsSentence category tokens := by
  obtain ⟨rest, spelled⟩ := begun.completed (List.forall_mem_singleton.mpr productive)
  exact ⟨rest, spelled.sentence⟩

theorem left (begins : BeginsSentence category (first ++ second)) : BeginsSentence category first := by
  obtain ⟨rest, sentence⟩ := begins
  exact ⟨second ++ rest, by rwa [← List.append_assoc]⟩

end BeginsSentence

end ContractSyntax
