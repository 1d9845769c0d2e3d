/-
**Fragments are made up of tokens that follow one another.**

Every fragment has a derivation over some of the tokens of the whole, in the places they have there,
which opens no more levels than the whole does. An operand is an expression by itself: the levels of
its chain that lie above it are not its own. The induction on the derivation of the whole runs along
with the tokens; only whether a block is one without braces depends on where the tokens lie.

* `Holds`: which fragments are made up of some of the tokens;
* `Derives.fragment_block`: a block in braces is a fragment wherever it stands;
* `Derives.holds`: for expressions and types, at every phrase of the grammar.
-/

import ContractSyntax.Proofs.Derivation.Item
import ContractSyntax.Proofs.Fragments.Tree
import ContractSyntax.Proofs.Places.Nesting
import ContractSyntax.Proofs.Printing.Derivation

namespace ContractSyntax

open Fragment

/-- Whether tokens make up a fragment, and how many levels of nesting it opens at most. -/
def Fragment.Derives : Fragment → Tokens → Nat → Prop
  | expr place, tokens, height => ContractSyntax.Derives .subexpr tokens place height
  | type place, tokens, height => ContractSyntax.Derives .subtype tokens place height
  | pattern place, tokens, _ => Pattern.Derives tokens place
  | definition item, tokens, height => Item.Derives tokens item height

/-- Whether a fragment is made up of some of the tokens that follow one another, within a height. -/
def Fragment.Among (tokens : Tokens) (height : Nat) (fragment : Fragment) : Prop :=
  ∃ part low, part <:+: tokens ∧ low ≤ height ∧ fragment.Derives part low

/-- Whether fragments are made up of some of the tokens, wherever these lie. -/
def Holds (tokens : Tokens) (height : Nat) (fragments : List Fragment) : Prop :=
  ∀ low high, tokens.Between low high → ∀ fragment ∈ fragments, fragment.Among tokens height

variable {tokens first second : Tokens} {height more : Nat} {fragments others : List Fragment}

theorem Fragment.Among.mono {fragment : Fragment} (among : fragment.Among tokens height)
    (part : tokens <:+: first) (le : height ≤ more) : fragment.Among first more := by
  obtain ⟨inner, low, within, fits, derived⟩ := among
  exact ⟨inner, low, within.trans part, Nat.le_trans fits le, derived⟩

namespace Holds

theorem nil : Holds tokens height [] := fun _ _ _ _ => nofun

theorem le (holds : Holds tokens height fragments) (le : height ≤ more) :
    Holds tokens more fragments := fun low high between fragment member =>
  (holds low high between fragment member).mono List.infix_rfl le

theorem append (before : Holds first height fragments) (after : Holds second more others) :
    Holds (first ++ second) (max height more) (fragments ++ others) := by
  intro low high between fragment member
  obtain ⟨middle, here, behind⟩ := Tokens.between_append.mp between
  rcases List.mem_append.mp member with member | member
  · exact (before _ _ here _ member).mono (List.prefix_append _ _).isInfix (Nat.le_max_left _ _)
  · exact (after _ _ behind _ member).mono (List.suffix_append _ _).isInfix (Nat.le_max_right _ _)

/-- A token that is no part of a fragment. -/
theorem skip (place : Spanned Token) (after : Holds tokens height fragments) :
    Holds (place :: tokens) height fragments := by
  rintro low high ⟨_, _, between⟩ fragment member
  exact (after _ _ between _ member).mono (List.suffix_cons _ _).isInfix (Nat.le_refl _)

/-- Tokens before what holds fragments. -/
theorem prepend (tokens : Tokens) (after : Holds second height fragments) :
    Holds (tokens ++ second) height fragments := by
  induction tokens with
  | nil => exact after
  | cons place rest continued => exact continued.skip place

/-- Tokens behind what holds fragments. -/
theorem before (holds : Holds tokens height fragments) (others : Tokens) :
    Holds (tokens ++ others) height fragments := by
  have whole := holds.append (nil : Holds others 0 [])
  rwa [List.append_nil, Nat.max_zero] at whole

/-- What the tokens make up as a whole, besides what is below it. -/
theorem whole {fragment : Fragment} (derived : fragment.Derives tokens height)
    (below : Holds tokens height fragments) : Holds tokens height (fragment :: fragments) := by
  intro low high between other member
  rcases List.mem_cons.mp member with rfl | member
  · exact ⟨tokens, height, List.infix_rfl, Nat.le_refl _, derived⟩
  · exact below low high between other member

/-- The members of a row. -/
theorem row {α : Type} {parts : List (Part α)} {below : α → List Fragment}
    (row : Commas (parts.map Part.tokens) tokens)
    (each : ∀ part ∈ parts, Holds part.tokens part.height (below part.value)) :
    Holds tokens (highest (parts.map Part.height)) ((parts.map Part.value).flatMap below) := by
  induction parts generalizing tokens with
  | nil => exact nil
  | cons part parts continued =>
    have here := each part List.mem_cons_self
    have behind := fun other member => each other (List.mem_cons_of_mem _ member)
    simp only [List.map_cons, List.flatMap_cons, highest_cons] at row ⊢
    generalize same : List.map Part.tokens parts = lists at row
    cases row with
    | last =>
      obtain rfl := List.map_eq_nil_iff.mp same
      simpa using here
    | more _ comma rest => exact here.append (.skip _ (continued (same ▸ rest) behind))

end Holds

/-! ### Up to the next token -/

/-- Whether fragments are made up of some of the tokens, wherever these lie from `before` on and up to
the token that starts at `next`. -/
def HoldsBefore (before next : Nat) (tokens : Tokens) (height : Nat) (fragments : List Fragment) :
    Prop :=
  ∀ low high, before ≤ low → high ≤ next → tokens.Between low high →
    ∀ fragment ∈ fragments, fragment.Among tokens height

variable {before next : Nat}

theorem Holds.holdsBefore (holds : Holds tokens height fragments) :
    HoldsBefore before next tokens height fragments :=
  fun low high _ _ => holds low high

namespace HoldsBefore

theorem le (holds : HoldsBefore before next tokens height fragments) (le : height ≤ more) :
    HoldsBefore before next tokens more fragments := fun low high begins ends between _ member =>
  (holds low high begins ends between _ member).mono List.infix_rfl le

theorem prepend (here : Holds first height fragments)
    (behind : HoldsBefore before next second more others) :
    HoldsBefore before next (first ++ second) (max height more) (fragments ++ others) := by
  intro low high begins ends between fragment member
  obtain ⟨middle, between, between'⟩ := Tokens.between_append.mp between
  rcases List.mem_append.mp member with member | member
  · exact (here _ _ between _ member).mono (List.prefix_append _ _).isInfix (Nat.le_max_left _ _)
  · have begins' := Nat.le_trans begins between.le
    exact (behind _ _ begins' ends between' _ member).mono (List.suffix_append _ _).isInfix
      (Nat.le_max_right _ _)

/-- A token that ends at `before` or later, with what follows it. -/
theorem after (place : Spanned Token) (stop : before ≤ place.span.stop)
    (behind : HoldsBefore before next tokens height fragments) :
    HoldsBefore 0 next (place :: tokens) height fragments := by
  rintro low high - ends ⟨_, _, between⟩ fragment member
  exact (behind _ _ stop ends between _ member).mono (List.suffix_cons _ _).isInfix (Nat.le_refl _)

/-- What lies before the token that ends a block. -/
theorem enclosed {place stop : Spanned Token}
    (inner : HoldsBefore 0 stop.span.start tokens height fragments) :
    Holds (place :: (tokens ++ [stop])) height fragments := by
  rintro low high ⟨_, _, between⟩ fragment member
  obtain ⟨middle, between, ends, _⟩ := Tokens.between_append.mp between
  exact (inner _ _ (Nat.zero_le _) ends between _ member).mono
    ((List.prefix_append _ _).isInfix.trans (List.suffix_cons _ _).isInfix) (Nat.le_refl _)

end HoldsBefore

/-! ### Operands by themselves -/

theorem Derives.suffixed_alone {tree : Spanned Expr} (derived : Derives .suffixed tokens tree height) :
    Derives .subexpr tokens tree (height + 1) :=
  .nested (.operators (.single 1 (.unsigned derived)))

theorem Derives.signed_alone {tree : Spanned Expr} (derived : Derives .signed tokens tree height) :
    Derives .subexpr tokens tree (height + 1) :=
  .nested (.operators (.single 1 derived))

theorem Derives.tier_alone {power : Nat} {tree : Spanned Expr}
    (derived : Derives (.tier power) tokens tree height) :
    Derives .subexpr tokens tree (height + 1) := by
  cases derived with
  | single _ derived => exact derived.signed_alone
  | binary operator _ span first second =>
    exact .nested (.operators (.binary operator operator.one_le_power span first second))

/-! ### Phrases -/

/-- Whether the fragments below the tree of a phrase are made up of some of its tokens. -/
def Phrase.Holds : (phrase : Phrase) → Tokens → phrase.Tree → Nat → Prop
  | field, tokens, tree, height => ContractSyntax.Holds tokens height tree.fragments
  | arm, tokens, tree, height => ContractSyntax.Holds tokens height tree.fragments
  | type, tokens, tree, height | subtype, tokens, tree, height =>
    ContractSyntax.Holds tokens height tree.node.fragments
  | stated, tokens, tree, height => ContractSyntax.Holds tokens height (tree.toList.flatMap ofType)
  | binding next, tokens, tree, height =>
    HoldsBefore 0 next tokens height (Slot.tail.fragments tree)
  | rest before next, tokens, tree, height =>
    HoldsBefore before next tokens height (Slot.tail.fragments tree)
  | items next, tokens, tree, height =>
    HoldsBefore 0 next tokens height
      (tree.1.flatMap ofExpr ++ tree.2.toList.flatMap Slot.tail.fragments)
  | expr, tokens, tree, height | subexpr, tokens, tree, height | tier _, tokens, tree, height
  | signed, tokens, tree, height | suffixed, tokens, tree, height | primary, tokens, tree, height =>
    ContractSyntax.Holds tokens height (tree.node.fragments .alone)

/-- The fragment of an expression is the expression. -/
theorem eq_of_mem_fragment {slot : Slot} {expr : Expr} {span : Span} {fragment : Fragment}
    (member : fragment ∈ slot.fragment expr span) : fragment = .expr ⟨expr, span⟩ := by
  unfold Slot.fragment at member
  split at member
  · cases member
  · cases member
  · split at member
    · cases member
    · exact List.mem_singleton.mp member
  · exact List.mem_singleton.mp member

namespace Holds

theorem expr {tree : Spanned Expr} (derived : ContractSyntax.Derives .subexpr tokens tree height)
    (below : Holds tokens height (tree.node.fragments .alone)) : Holds tokens height (ofExpr tree) := by
  have whole : Holds tokens height (.expr tree :: tree.node.fragments .alone) := .whole derived below
  intro low high between fragment member
  refine whole low high between fragment ?_
  rcases List.mem_append.mp member with member | member
  · exact eq_of_mem_fragment member ▸ List.mem_cons_self
  · exact List.mem_cons_of_mem _ member

theorem type {tree : Spanned Ty} (derived : ContractSyntax.Derives .subtype tokens tree height)
    (below : Holds tokens height tree.node.fragments) : Holds tokens height (ofType tree) :=
  .whole derived below

theorem exprs {parts : List (Part (Spanned Expr))} (row : Commas (parts.map Part.tokens) tokens)
    (derived : ∀ part ∈ parts, ContractSyntax.Derives .subexpr part.tokens part.value part.height)
    (each : ∀ part ∈ parts, Phrase.subexpr.Holds part.tokens part.value part.height) :
    Holds tokens (highest (parts.map Part.height)) (exprFragments (parts.map Part.value)) := by
  rw [exprFragments_eq]
  exact .row row fun part member => .expr (derived part member) (each part member)

end Holds

/-- At the end of a block an expression that is no binding has at most the fragments that it has by
itself. -/
theorem fragments_tail_subset {tree : Spanned Expr} (unbound : ¬ tree.node.isBinding = true) :
    ∀ fragment ∈ Slot.tail.fragments tree, fragment ∈ ofExpr tree := by
  obtain ⟨expr, span⟩ := tree
  cases expr with
  | binding => exact absurd rfl unbound
  | variant _ _ given => cases given <;> exact fun _ member => member
  | block statements last =>
    intro fragment member
    rcases List.mem_append.mp member with member | member
    · exact List.mem_append_left _ (List.mem_singleton.mpr (eq_of_mem_fragment member))
    · refine List.mem_append_right _ ?_
      rwa [fragments_block] at member ⊢
  | _ => exact fun _ member => member

/-- A statement starts where the tokens of its block do. -/
theorem Derives.start_items {first : Spanned Token} {rest : Tokens} {expr : Spanned Expr}
    {statements : List (Spanned Expr)} {last : Option (Spanned Expr)} {low high : Nat}
    (derived : Derives (.items next) (first :: rest) (expr :: statements, last) height)
    (between : Tokens.Between low high (first :: rest)) : expr.span.start = first.span.start := by
  generalize same : first :: rest = tokens at derived between
  cases derived with
  | statement semicolon unbound derived continued =>
    obtain ⟨middle, between, _⟩ := Tokens.between_append.mp between
    obtain ⟨place, others, rfl, _⟩ := derived.opened
    rw [List.cons_append] at same
    obtain ⟨rfl, -⟩ := List.cons.inj same
    exact (derived.placed.1.ends between).1
  | assign target equal semicolon derived continued =>
    obtain ⟨rfl, -⟩ := List.cons.inj same
    obtain ⟨middle, between, _⟩ := (@Tokens.between_append _ _ (_ :: _ :: _) _).mp between
    have opened := Spans.token (.ident target.node) target.span
    exact ((opened.merge [_] derived.placed.1).ends between).1

/-- Nothing is made up of no tokens. -/
theorem Derives.tokens_nil (derived : Derives (.items next) tokens ([], none) height) :
    tokens = [] := by
  cases derived
  rfl

/-- The rest of a block behind a binding has no braces if it is not a single value. -/
theorem isUnbraced_remainder {statements : List (Spanned Expr)} {last : Option (Spanned Expr)}
    {low high : Nat} (derived : Derives (.items next) tokens (statements, last) height)
    (several : statements ≠ [] ∨ last = none) (begins : before ≤ low) (ends : high ≤ next)
    (between : tokens.Between low high) :
    isUnbraced statements last ⟨startBefore next tokens,
      max (Cursor.stopAfter before tokens) (startBefore next tokens)⟩ = true := by
  cases tokens with
  | nil =>
    obtain ⟨rfl, rfl⟩ := derived.items_nil
    have reach : before ≤ next := Nat.le_trans begins (Nat.le_trans between ends)
    simp [isUnbraced, Span.isEmpty, Span.length, startBefore, Cursor.stopAfter, reach]
  | cons first rest =>
    cases statements with
    | nil =>
      obtain rfl := several.resolve_left (fun other => other rfl)
      exact absurd derived.tokens_nil (List.cons_ne_nil _ _)
    | cons expr statements =>
      rw [isUnbraced, derived.start_items between]
      exact beq_self_eq_true _

/-- A block in braces starts before its first statement and is not empty, so it can be read alone
wherever it stands. -/
theorem Derives.fragment_block {start stop : Span} {statements : List (Spanned Expr)}
    {last : Option (Spanned Expr)} {low high : Nat}
    (derived : Derives (.items stop.start) tokens (statements, last) height) (slot : Slot)
    (between : Tokens.Between low high
      (⟨.symbol .leftBrace, start⟩ :: (tokens ++ [⟨.symbol .rightBrace, stop⟩]))) :
    slot.fragment (.block statements last) (start.merge stop) =
      [.expr ⟨.block statements last, start.merge stop⟩] := by
  obtain ⟨_, some, between⟩ := between
  obtain ⟨middle, inner, ends, _⟩ := Tokens.between_append.mp between
  have reach : start.stop ≤ stop.start := Nat.le_trans inner.le ends
  have opens : start.start < start.stop := some
  have starts : min start.start stop.start = start.start := Nat.min_eq_left (by omega)
  have braced : ¬ isUnbraced statements last (start.merge stop) := by
    cases statements with
    | nil =>
      have wide : ¬ max start.stop stop.stop - start.start = 0 := by omega
      simp [isUnbraced, Span.isEmpty, Span.length, Span.merge, starts, wide]
    | cons expr statements =>
      obtain ⟨first, rest, rfl⟩ : ∃ first rest, tokens = first :: rest := by
        cases tokens with
        | nil => cases derived.items_nil.1
        | cons first rest => exact ⟨first, rest, rfl⟩
      have behind : start.stop ≤ expr.span.start := derived.start_items inner ▸ inner.1
      simp only [isUnbraced, Span.merge, starts, beq_iff_eq]
      omega
  cases slot <;> simp [Slot.fragment, braced]

/-- The fragments below the tree of a phrase are made up of some of its tokens. -/
theorem Derives.holds {phrase : Phrase} {tokens : Tokens} {tree : phrase.Tree} {height : Nat}
    (derived : Derives phrase tokens tree height) : phrase.Holds tokens tree height := by
  induction derived with
  -- operands
  | int | float | string | true | false | ret | it | unit | var | variant => exact .nil
  | paren _ _ derived inner => exact .skip _ ((Holds.expr derived inner).before _)
  | array _ _ _ row derived each => exact .skip _ ((Holds.exprs row derived each).before _)
  | construct _ _ _ _ _ row _ each =>
    have fields := Holds.row row each
    rw [← fieldFragments_eq] at fields
    exact .skip _ (.skip _ (.skip _ (fields.before _)))
  | call _ _ _ _ row derived each =>
    exact .skip _ (.skip _ ((Holds.exprs row derived each).before _))
  | variantOf _ _ _ _ _ _ row derived each =>
    exact .prepend [_, _, _, _] ((Holds.exprs row derived each).before _)
  | field _ _ derived value => exact .skip _ (.skip _ (.expr derived value))
  -- suffixes: by itself the receiver needs a level more than in the chain, where its suffix needs one
  | operand _ operand => exact operand
  | state _ _ _ derived receiver | member _ _ derived receiver =>
    exact (Holds.expr derived.suffixed_alone (receiver.le (Nat.le_succ _))).before _
  | methodCall _ _ _ _ derived _ row derivedEach receiver each =>
    have receiver := Holds.expr derived.suffixed_alone (receiver.le (Nat.le_succ _))
    have given := Holds.exprs row derivedEach each
    exact (receiver.append (.prepend [_, _, _] (given.before _))).le (by omega)
  | index _ _ derived derivedPosition receiver position =>
    have receiver := Holds.expr derived.suffixed_alone (receiver.le (Nat.le_succ _))
    have position := Holds.expr derivedPosition position
    exact (receiver.append (.skip _ (position.before _))).le (by omega)
  -- operators
  | unsigned _ operand => exact operand
  | least => exact .nil
  | unary _ _ others _ derived operand =>
    exact .skip _ (.prepend others (.expr derived.signed_alone (operand.le (Nat.le_succ _))))
  | single _ _ operand => exact operand
  | binary _ _ _ derivedLeft derivedRight left right =>
    have left := Holds.expr derivedLeft.tier_alone (left.le (Nat.le_succ _))
    have right := Holds.expr derivedRight.tier_alone (right.le (Nat.le_succ _))
    exact (left.append (.skip _ right)).le (by omega)
  -- constructs
  | nested _ inner => exact Holds.le inner (Nat.le_succ _)
  | operators _ inner => exact inner
  | conditional _ _ _ derivedCondition derivedYes derivedNo condition yes no =>
    have condition := Holds.expr derivedCondition condition
    have yes := Holds.expr derivedYes yes
    have no := Holds.expr derivedNo no
    exact .skip _ (condition.append (.skip _ (yes.append (.skip _ no))))
  | @binding _ _ _ _ _ mark _ _ _ _ _ _ _ _ _ _ _ derivedValue derivedBody type value body =>
    have value := Holds.expr derivedValue value
    have body := Holds.expr derivedBody body
    simp only [Phrase.Holds, fragments_binding]
    exact .skip _ (.prepend mark (.skip _ (Holds.append type (.skip _ (value.append (.skip _ body))))))
  | matching _ _ _ derived _ row _ subject each =>
    have arms := Holds.row row each
    rw [← armFragments_eq] at arms
    exact .skip _ ((Holds.expr derived subject).append (.skip _ (arms.before _)))
  | arm _ pattern derived body =>
    have pattern : Holds _ 0 [.pattern _] := .whole pattern .nil
    exact (pattern.append (.skip _ (.expr derived body))).le (by omega)
  | whileLoop _ _ _ derivedCondition derivedBody condition body =>
    have condition := Holds.expr derivedCondition condition
    have body := Holds.expr derivedBody body
    exact .skip _ (condition.append (.skip _ (body.before _)))
  | forLoop _ _ _ _ _ derivedRange derivedBody range body =>
    have range := Holds.expr derivedRange range
    have body := Holds.expr derivedBody body
    exact .prepend [_, _, _] (range.append (.skip _ (body.before _)))
  | block _ _ _ inner =>
    simp only [Phrase.Holds, fragments_block]
    exact HoldsBefore.enclosed inner
  -- blocks
  | nothing => exact Holds.nil.holdsBefore
  | value _ unbound derived inner =>
    have alone := Holds.expr derived inner
    refine fun low high _ _ between fragment member => alone low high between fragment ?_
    exact fragments_tail_subset (derived.not_isBinding unbound) fragment (by simpa using member)
  | bound _ inner =>
    refine HoldsBefore.le ?_ (Nat.le_succ _)
    simpa [Phrase.Holds] using inner
  | statement semicolon _ derived _ expr others =>
    have whole := HoldsBefore.prepend (.expr derived expr)
      (.after ⟨.symbol .semicolon, semicolon⟩ (Nat.zero_le _) others)
    simpa [Phrase.Holds, List.append_assoc] using whole
  | @assign target equal semicolon _ _ _ value _ _ _ _ derived _ given others =>
    have assigned := Holds.skip target.ident (.skip ⟨.symbol .equal, equal⟩ (.expr derived given))
    have whole := HoldsBefore.prepend assigned
      (.after ⟨.symbol .semicolon, semicolon⟩ (Nat.zero_le _) others)
    simpa [Phrase.Holds, List.append_assoc, ofExpr_assign] using whole
  | @bindingRest start equal semicolon isMutable name _ mark _ _ _ type value body _ _ _ _ _
      derivedValue _ typed given rest =>
    -- the rest counts its places from the end of this semicolon
    have behind := HoldsBefore.after ⟨.symbol .semicolon, semicolon⟩ (Nat.le_refl _) rest
    have given := HoldsBefore.prepend (.expr derivedValue given) behind
    have typed := HoldsBefore.prepend typed (.after ⟨.symbol .equal, equal⟩ (Nat.zero_le _) given)
    have named := HoldsBefore.after name.ident (Nat.zero_le _) typed
    have marked := HoldsBefore.prepend (.nil : Holds mark 0 []) named
    have whole := marked.after ⟨.keyword .let_, start⟩ (Nat.zero_le _)
    rwa [Nat.zero_max, List.nil_append, ← fragments_binding .tail isMutable name] at whole
  | lone _ _ inner =>
    refine fun low high _ ends between fragment member => ?_
    exact inner low high (Nat.zero_le _) ends between fragment (by simpa using member)
  | remainder _ derived several inner =>
    intro low high begins ends between fragment member
    have unbraced := isUnbraced_remainder derived several begins ends between
    refine inner low high (Nat.zero_le _) ends between fragment ?_
    simpa [Slot.fragments, Slot.fragment, unbraced, fragments_block] using member
  -- types
  | nestedType _ inner => exact Holds.le inner (Nat.le_succ _)
  | unstated => exact .nil
  | stated _ derived type => simpa [Phrase.Holds] using Holds.skip _ (Holds.type derived type)
  | primitive | named | unitType => exact .nil
  | @reference _ mark _ _ _ isMutable _ _ target =>
    cases isMutable <;> exact .skip _ (.prepend mark target)
  | arrayType _ _ _ _ _ _ element => exact .skip _ (Holds.before element _)
  | refined _ _ _ _ _ _ row derived each =>
    exact .skip _ (.skip _ ((Holds.exprs row derived each).before _))

end ContractSyntax
