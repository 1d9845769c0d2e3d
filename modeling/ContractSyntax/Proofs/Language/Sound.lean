/-
**What is derived is a sentence.**

A derivation becomes one of the grammar when places, trees and heights are forgotten.

* `Derives.sentence`: for expressions and types;
* `Program.Derives.sentence`: for programs.
-/

import ContractSyntax.Proofs.Derivation.Item
import ContractSyntax.Proofs.Language.Grammar

namespace ContractSyntax

/-- The tokens without their places. -/
abbrev nodes (tokens : Tokens) : List Token := tokens.map Spanned.node

/-! ### Names, lists and literals -/

namespace Sentence

variable {category : Category} {tokens : List Token}

theorem name (text : String) : Sentence .name [.ident text] :=
  ⟨_, .name text, .token _ .nothing⟩

theorem list {parts : List Tokens} {tokens : Tokens} (row : Commas parts tokens)
    (each : ∀ part ∈ parts, Sentence category (nodes part)) :
    Sentence (.list category) (nodes tokens) := by
  induction row with
  | none => exact ⟨_, .emptyList _, .nothing⟩
  | last part => exact ⟨_, .endOfList _, (each part List.mem_cons_self).last⟩
  | more part comma _ continued =>
    have others := continued fun other member => each other (List.mem_cons_of_mem _ member)
    simp only [nodes, List.map_append, List.map_cons]
    exact ⟨_, .moreOfList _, (each part List.mem_cons_self).before (.token _ others.last)⟩

theorem names {names : List Name} {tokens : Tokens}
    (row : Commas (names.map fun name => [name.ident]) tokens) :
    Sentence (.list .name) (nodes tokens) := by
  refine list row fun part member => ?_
  obtain ⟨bound, _, rfl⟩ := List.mem_map.mp member
  exact name bound.node

theorem mutability {isMutable : Bool} {mark : Tokens} (marked : Marks .mut_ isMutable mark) :
    Sentence .mutability (nodes mark) := by
  cases isMutable <;> rw [show nodes mark = _ from marked]
  · exact ⟨_, .immutable, .nothing⟩
  · exact ⟨_, .mutable, .token _ .nothing⟩

theorem operated (operator : UnaryOperator) (sentence : Sentence .unary tokens) :
    Sentence .unary (operator.tokens ++ tokens) := by
  cases operator with
  | negate => exact ⟨_, .negate, .token _ sentence.last⟩
  | not => exact ⟨_, .not, .token _ sentence.last⟩
  | reference => exact ⟨_, .referTo, .token _ sentence.last⟩
  | mutableReference => exact ⟨_, .referMutably, .token _ (.token _ sentence.last)⟩
  | dereference => exact ⟨_, .dereference, .token _ sentence.last⟩

/-- What binds more tightly stands on every tier below. -/
theorem tier {power : Nat} (infixes : power ≤ unaryPower) (sentence : Sentence .unary tokens) :
    Sentence (.tier power) tokens := by
  have climbed (gap : Nat) : ∀ power, power + gap = unaryPower → Sentence (.tier power) tokens := by
    induction gap with
    | zero =>
      rintro power rfl
      exact ⟨_, .tightest, sentence.last⟩
    | succ gap continued =>
      intro power same
      exact ⟨_, .tighter (by omega), (continued (power + 1) (by omega)).last⟩
  exact climbed (unaryPower - power) power (by omega)

theorem lower {power higher : Nat} (less : power ≤ higher) (infixes : higher ≤ unaryPower)
    (sentence : Sentence (.tier higher) tokens) : Sentence (.tier power) tokens := by
  induction less with
  | refl => exact sentence
  | step less continued => exact continued (by omega) ⟨_, .tighter (by omega), sentence.last⟩

end Sentence

/-! ### Phrases -/

/-- The sentence that the tokens of a phrase are. -/
def Phrase.Sentence : Phrase → List Token → Prop
  | expr, tokens | subexpr, tokens =>
    ContractSyntax.Sentence .expr tokens ∧
      (tokens.head? ≠ some (.keyword .let_) → ContractSyntax.Sentence .unbound tokens)
  | tier power, tokens => power ≤ unaryPower → ContractSyntax.Sentence (.tier power) tokens
  | signed, tokens => ContractSyntax.Sentence .unary tokens
  | suffixed, tokens => ContractSyntax.Sentence .suffixed tokens
  | primary, tokens => ContractSyntax.Sentence .primary tokens
  | field, tokens => ContractSyntax.Sentence .field tokens
  | arm, tokens => ContractSyntax.Sentence .arm tokens
  | type, tokens | subtype, tokens => ContractSyntax.Sentence .type tokens
  | stated, tokens => ContractSyntax.Sentence .typing tokens
  | binding _, tokens | rest _ _, tokens | items _, tokens =>
    ContractSyntax.Sentence .statements tokens

/-- An expression that is no `let` is an expression. -/
theorem Sentence.unbound {tokens : List Token} (sentence : Sentence .unbound tokens) :
    Phrase.expr.Sentence tokens :=
  ⟨⟨_, .unbound, sentence.last⟩, fun _ => sentence⟩

theorem Pattern.Derives.sentence {tokens : Tokens} {pattern : Spanned Pattern}
    (derived : Pattern.Derives tokens pattern) : Sentence .pattern (nodes tokens) := by
  have literal {token : Token} (rule : Rule .literal [.token token]) :
      Sentence .pattern [token] :=
    ⟨_, .literalPattern, Sentence.last ⟨_, rule, .token _ .nothing⟩⟩
  cases derived with
  | int read => exact literal (.int (readInt64?_eq_some_iff.mp read).1)
  | float read => exact literal (.float (by rw [read]; rfl))
  | string content => exact literal (.string content)
  | true => exact literal .true
  | false => exact literal .false
  | wildcard => exact ⟨_, .wildcard, .token _ .nothing⟩
  | bind name => exact ⟨_, .namePattern, (Sentence.name name.node).last⟩
  | variant enumeration variant =>
    exact ⟨_, .variantPattern, (Sentence.name _).before (.token _ (Sentence.name variant.node).last)⟩
  | variantOf enumeration variant colons start stop row =>
    simp only [nodes, List.map_append, List.map_cons, List.map_nil]
    exact ⟨_, .variantPatternOf, (Sentence.name _).before (.token _ ((Sentence.name _).before
      (.token _ ((Sentence.names row).before (.token _ .nothing)))))⟩

theorem readUInt64?_lt {digits : String} {length : UInt64}
    (read : readUInt64? digits = some length) : digitsValue digits.toList < UInt64.size := by
  unfold readUInt64? at read
  dsimp only at read
  split at read
  · assumption
  · cases read

open Sentence in
/-- The tokens of a phrase are the sentence that they should be. -/
theorem Derives.sentence {phrase : Phrase} {tokens : Tokens} {tree : phrase.Tree} {height : Nat}
    (derived : Derives phrase tokens tree height) : phrase.Sentence (nodes tokens) := by
  have literal {token : Token} (rule : Rule .literal [.token token]) :
      Sentence .primary [token] :=
    ⟨_, .literalOperand, Sentence.last ⟨_, rule, .token _ .nothing⟩⟩
  induction derived with
    simp only [nodes, List.map_append, List.map_cons, List.map_nil]
  -- operands
  | int read => exact literal (.int (readInt64?_eq_some_iff.mp read).1)
  | float read => exact literal (.float (by rw [read]; rfl))
  | string content => exact literal (.string content)
  | true => exact literal .true
  | false => exact literal .false
  | ret => exact ⟨_, .ret, .token _ .nothing⟩
  | it => exact ⟨_, .it, .token _ .nothing⟩
  | unit => exact ⟨_, .unit, .token _ (.token _ .nothing)⟩
  | paren start stop _ inner => exact ⟨_, .paren, .token _ (inner.1.before (.token _ .nothing))⟩
  | array start stop parts row _ each =>
    have elements := list row (List.forall_mem_map.mpr fun part member => (each part member).1)
    exact ⟨_, .array, .token _ (elements.before (.token _ .nothing))⟩
  | construct start opened stop struct parts row _ each =>
    have fields := list row (List.forall_mem_map.mpr each)
    exact ⟨_, .construct, .token _ ((name _).before (.token _
      (fields.before (.token _ .nothing))))⟩
  | var bound => exact ⟨_, .var, (name _).last⟩
  | call function start stop parts row _ each =>
    have given := list row (List.forall_mem_map.mpr fun part member => (each part member).1)
    exact ⟨_, .call, (name _).before (.token _ (given.before (.token _ .nothing)))⟩
  | variant => exact ⟨_, .variantOperand, (name _).before (.token _ (name _).last)⟩
  | variantOf enumeration variant colons start stop parts row _ each =>
    have given := list row (List.forall_mem_map.mpr fun part member => (each part member).1)
    exact ⟨_, .variantOperandOf, (name _).before (.token _ ((name _).before
      (.token _ (given.before (.token _ .nothing)))))⟩
  | field bound colon _ value => exact ⟨_, .field, (name _).before (.token _ value.1.last)⟩
  -- suffixes
  | operand _ operand => exact ⟨_, .operand, operand.last⟩
  | state moment dot stop _ receiver =>
    exact ⟨_, .state moment, receiver.before (.token _ (.token _ .nothing))⟩
  | member bound dot _ receiver =>
    exact ⟨_, .access, receiver.before (.token _ (name _).last)⟩
  | methodCall method dot start stop _ parts row _ receiver each =>
    have given := list row (List.forall_mem_map.mpr fun part member => (each part member).1)
    exact ⟨_, .methodCall, receiver.before (.token _ ((name _).before
      (.token _ (given.before (.token _ .nothing)))))⟩
  | index start stop _ _ receiver position =>
    exact ⟨_, .index, receiver.before (.token _ (position.1.before (.token _ .nothing)))⟩
  -- operators
  | unsigned _ operand => exact ⟨_, .unsigned, operand.last⟩
  | least => exact ⟨_, .least, .token _ (.token _ .nothing)⟩
  | unary operator first others spelled _ operand =>
    rw [← List.cons_append, ← List.map_cons, spelled]
    exact operated operator operand
  | single power _ operand => exact fun infixes => tier infixes operand
  | binary operator tight span _ _ left right =>
    intro _
    have bound : operator.power < unaryPower := Nat.lt_succ_of_le operator.power_le
    refine lower tight (Nat.le_of_lt bound) ⟨_, .binary operator, ?_⟩
    exact (left (Nat.le_of_lt bound)).before (.token _ (right bound).last)
  -- constructs
  | nested _ inner => exact inner
  | operators _ inner => exact Sentence.unbound ⟨_, .operators, (inner (by decide)).last⟩
  | conditional start middle last _ _ _ condition yes no =>
    exact Sentence.unbound ⟨_, .conditional, .token _ (condition.1.before (.token _
      (yes.1.before (.token _ no.1.last))))⟩
  | binding start equal semicolon isMutable bound marked _ _ _ type value body =>
    refine ⟨⟨_, .binding, .token _ ((mutability marked).before ((name _).before
      (type.before (.token _ (value.1.before (.token _ body.1.last))))))⟩, fun other => ?_⟩
    exact absurd rfl other
  | matching start opened stop _ parts row _ subject each =>
    have arms := list row (List.forall_mem_map.mpr each)
    exact Sentence.unbound ⟨_, .matching, .token _ (subject.1.before (.token _
      (arms.before (.token _ .nothing))))⟩
  | arm arrow pattern _ body =>
    exact ⟨_, .arm, pattern.sentence.before (.token _ body.1.last)⟩
  | whileLoop start opened stop _ _ condition body =>
    exact Sentence.unbound ⟨_, .whileLoop, .token _ (condition.1.before (.token _
      (body.1.before (.token _ .nothing))))⟩
  | forLoop start inside opened stop bound _ _ range body =>
    exact Sentence.unbound ⟨_, .forLoop, .token _ ((name _).before (.token _ (range.1.before
      (.token _ (body.1.before (.token _ .nothing))))))⟩
  | block start stop _ items =>
    exact Sentence.unbound ⟨_, .block, .token _ (items.before (.token _ .nothing))⟩
  -- blocks
  | nothing => exact ⟨_, .noStatements, .nothing⟩
  | value next other _ expr =>
    exact ⟨_, .value, (expr.2 (by rwa [List.head?_map])).last⟩
  | bound _ bound => exact bound
  | statement semicolon other _ _ expr others =>
    exact ⟨_, .statement, (expr.2 (by rwa [List.head?_map])).before (.token _ others.last)⟩
  | assign target equal semicolon _ _ value others =>
    exact ⟨_, .assignment, (name _).before (.token _ (value.1.before (.token _ others.last)))⟩
  | bindingRest start equal semicolon isMutable bound marked _ _ _ type value body =>
    exact ⟨_, .bindingRest, .token _ ((mutability marked).before ((name _).before
      (type.before (.token _ (value.1.before (.token _ body.last))))))⟩
  | lone before _ items => exact items
  | remainder before _ several items => exact items
  -- types
  | nestedType _ inner => exact inner
  | unstated => exact ⟨_, .unannotated, .nothing⟩
  | stated colon _ type => exact ⟨_, .annotated, .token _ type.last⟩
  | primitive base => exact ⟨_, .primitive base, .token _ .nothing⟩
  | unitType => exact ⟨_, .unitType, .token _ (.token _ .nothing)⟩
  | named bound => exact ⟨_, .namedType, (name _).last⟩
  | reference sign isMutable marked _ target =>
    exact ⟨_, .reference, .token _ ((mutability marked).before target.last)⟩
  | arrayType start semicolon span stop read _ element =>
    exact ⟨_, .arrayType (readUInt64?_lt read), .token _ (element.before (.token _ (.token _
      (.token _ .nothing))))⟩
  | refined base refinable start opened stop parts row _ each =>
    have constraints := list row (List.forall_mem_map.mpr fun part member => (each part member).1)
    have refines : base ≠ .string := by
      rintro rfl
      cases refinable
    exact ⟨_, .refined refines, .token _ (.token _ (constraints.before (.token _ .nothing)))⟩

/-! ### Definitions -/

section Definitions

variable {tokens : Tokens} {height : Nat}

theorem Row.sentence {α : Type} {meaning : Tokens → α → Nat → Prop} {category : Category}
    {values : List α} (row : Row meaning tokens values height)
    (each : ∀ tokens value height, meaning tokens value height → Sentence category (nodes tokens)) :
    Sentence (.list category) (nodes tokens) := by
  obtain ⟨parts, commas, _, _, derived⟩ := row
  exact .list commas (List.forall_mem_map.mpr fun part member => each _ _ _ (derived part member))

theorem Row.sentence_exprs {values : List (Spanned Expr)}
    (row : Row (Derives .subexpr) tokens values height) :
    Sentence (.list .expr) (nodes tokens) :=
  row.sentence fun _ _ _ derived => derived.sentence.1

theorem TypedName.Derives.sentence {typed : TypedName}
    (derived : TypedName.Derives tokens typed height) : Sentence .typedName (nodes tokens) := by
  obtain ⟨name, colon, type⟩ := derived
  exact ⟨_, .typedName, (Sentence.name _).before (.token _ type.sentence.last)⟩

theorem Attribute.Derives.sentence {mark : Attribute}
    (derived : Attribute.Derives tokens mark height) : Sentence .mark (nodes tokens) := by
  cases derived with
  | bare start name => exact ⟨_, .mark, .token _ (Sentence.name _).last⟩
  | applied start opened stop name row =>
    simp only [nodes, List.map_append, List.map_cons, List.map_nil]
    exact ⟨_, .markOf, .token _ ((Sentence.name _).before (.token _
      (row.sentence_exprs.before (.token _ .nothing))))⟩

theorem Labelled.sentence {label : Option Name} (labelled : Labelled tokens label) :
    Sentence .label (nodes tokens) := by
  cases labelled with
  | absent => exact ⟨_, .unlabelled, .nothing⟩
  | present name colon => exact ⟨_, .labelled, (Sentence.name _).before (.token _ .nothing)⟩

theorem Condition.Derives.sentence {condition : Condition}
    (derived : Condition.Derives tokens condition height) :
    Sentence .condition (nodes tokens) := by
  obtain ⟨labelled, expr⟩ := derived
  simp only [nodes, List.map_append]
  exact ⟨_, .condition, labelled.sentence.before expr.sentence.1.last⟩

theorem Clause.sentence {word : Keyword} {found : Option (Spanned Expr)}
    (clause : Clause word tokens found height) : Sentence (.clause word) (nodes tokens) := by
  cases clause with
  | absent => exact ⟨_, .noClause word, .nothing⟩
  | present start derived => exact ⟨_, .clause word, .token _ derived.sentence.1.last⟩

theorem Contract.Derives.sentence {contract : Option Contract}
    (derived : Contract.Derives tokens contract height) : Sentence .contract (nodes tokens) := by
  cases derived with
  | conditions start opened stop row =>
    simp only [nodes, List.map_append, List.map_cons, List.map_nil]
    have conditions := row.sentence fun _ _ _ derived => derived.sentence
    exact ⟨_, .conditions, .token _ (.token _ (conditions.before (.token _ .nothing)))⟩
  | clauses pre post =>
    simp only [nodes, List.map_append]
    exact ⟨_, .clauses, pre.sentence.before post.sentence.last⟩

theorem Variant.Derives.sentence {variant : Variant}
    (derived : Variant.Derives tokens variant height) : Sentence .variant (nodes tokens) := by
  cases derived with
  | bare name => exact ⟨_, .variant, (Sentence.name _).last⟩
  | parts name start stop row =>
    simp only [nodes, List.map_append, List.map_cons, List.map_nil]
    have types := row.sentence fun _ _ _ derived => derived.sentence
    exact ⟨_, .variantOf, (Sentence.name _).before (.token _ (types.before (.token _ .nothing)))⟩

theorem sentence_attributes {attributes : List Attribute}
    (several : Several Attribute.Derives tokens attributes height) :
    Sentence .attributes (nodes tokens) := by
  induction several with
  | none => exact ⟨_, .noAttributes, .nothing⟩
  | more first _ continued =>
    simp only [nodes, List.map_append]
    exact ⟨_, .attributes, first.sentence.before continued.last⟩

theorem Marks.sentence {isShown : Bool} (marked : Marks .pub isShown tokens) :
    Sentence .visibility (nodes tokens) := by
  cases isShown <;> rw [show nodes tokens = _ from marked]
  · exact ⟨_, .hidden, .nothing⟩
  · exact ⟨_, .shown, .token _ .nothing⟩

/-- What stands before the word for a definition comes before the rest of it. -/
theorem Parser.Header.Derives.before {header : Parser.Header} {following : Span}
    {elements : List Element} {others : List Token}
    (headed : header.Derives following tokens height) (continued : Spells elements others) :
    Spells (.of .attributes :: .of .visibility :: elements) (nodes tokens ++ others) := by
  obtain ⟨several, marked⟩ := headed
  simp only [nodes, List.map_append, List.append_assoc]
  exact (sentence_attributes several).before (marked.sentence.before continued)

theorem Sentence.path (first : Name) (rest : List (Span × Name)) :
    Sentence .path (.ident first.node :: nodes (pathTokens rest)) := by
  induction rest generalizing first with
  | nil => exact ⟨_, .endOfPath, (Sentence.name _).last⟩
  | cons part rest continued =>
    exact ⟨_, .path, (Sentence.name _).before (.token _ (continued part.2).last)⟩

theorem Item.Derives.sentence {item : Item} (derived : Item.Derives tokens item height) :
    Sentence .item (nodes tokens) := by
  cases derived with simp only [nodes, List.map_append, List.map_cons, List.map_nil]
  | use start stop first rest =>
    exact ⟨_, .use, .token _ ((Sentence.path first rest).before (.token _ .nothing))⟩
  | struct word opened stop name headed row =>
    have fields := row.sentence fun _ _ _ derived => derived.sentence
    exact ⟨_, .struct, headed.before (.token _ ((Sentence.name _).before (.token _
      (fields.before (.token _ .nothing)))))⟩
  | enum word opened stop name headed row =>
    have variants := row.sentence fun _ _ _ derived => derived.sentence
    exact ⟨_, .enum, headed.before (.token _ ((Sentence.name _).before (.token _
      (variants.before (.token _ .nothing)))))⟩
  | function word opened closed arrow equal stop name headed row named type contract body =>
    have parameters := row.sentence fun _ _ _ derived => derived.sentence
    exact ⟨_, .function, headed.before (.token _ ((Sentence.name _).before (.token _
      (parameters.before (.token _ (.token _ (named.sentence.before (type.sentence.before
        (contract.sentence.before (.token _ (body.sentence.1.before
          (.token _ .nothing))))))))))))⟩

theorem sentence_items {items : List Item} (several : Several Item.Derives tokens items height) :
    Sentence .program (nodes tokens) := by
  induction several with
  | none => exact ⟨_, .endOfProgram, .nothing⟩
  | more first _ continued =>
    simp only [nodes, List.map_append]
    exact ⟨_, .program, first.sentence.before continued.last⟩

theorem Program.Derives.sentence {program : Program} (derived : program.Derives tokens height) :
    Sentence .program (nodes tokens) :=
  sentence_items derived

end Definitions

end ContractSyntax
