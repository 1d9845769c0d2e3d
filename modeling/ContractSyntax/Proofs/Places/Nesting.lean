/-
**Trees lie over their tokens.**

The span of a phrase runs from its first token to its last, and the spans of its parts lie in the
tokens of the parts. There is one exception: the rest of a block after a binding, if it is empty,
lies where the next token begins, and with it ends each binding before it. The induction on the
derivation therefore gives for a block or the rest of one either outlines over the tokens or outlines
up to the next token; in the second case the last expression ends in such a rest, and a block that
ends before it ends loosely.

* `Derives.placed`: for expressions and types, at every phrase of the grammar.
-/

import ContractSyntax.Proofs.Derivation.Opening
import ContractSyntax.Proofs.Places.Fitting

namespace ContractSyntax

open Outline

/-- Whether the tree of a phrase lies over the tokens of the phrase. -/
def Phrase.Placed : (phrase : Phrase) → Tokens → phrase.Tree → Prop
  | field, tokens, tree => Fits tokens tree.outlines
  | arm, tokens, tree => Fits tokens tree.outlines
  | type, tokens, tree | subtype, tokens, tree =>
    Spans tokens tree.span ∧ Fits tokens tree.node.outlines
  | stated, tokens, tree => Fits tokens (tree.toList.map ofType)
  | binding next, tokens, tree => FitsBefore 0 next tokens [ofExpr tree] (ofExpr tree).restEnd?
  | rest before next, tokens, tree => FitsBefore before next tokens [ofExpr tree] (ofExpr tree).restEnd?
  | items next, tokens, tree =>
    FitsBefore 0 next tokens ((tree.1 ++ tree.2.toList).map ofExpr)
      (tree.2.bind fun last => (ofExpr last).restEnd?)
  | expr, tokens, tree | subexpr, tokens, tree | tier _, tokens, tree | signed, tokens, tree
  | suffixed, tokens, tree | primary, tokens, tree =>
    Spans tokens tree.span ∧ Fits tokens tree.node.outlines

variable {tokens : Tokens}

theorem Fits.expr {expr : Spanned Expr}
    (placed : Spans tokens expr.span ∧ Fits tokens expr.node.outlines) :
    Fits tokens [ofExpr expr] :=
  .node placed.1 placed.2

theorem Fits.type {type : Spanned Ty}
    (placed : Spans tokens type.span ∧ Fits tokens type.node.outlines) :
    Fits tokens [ofType type] :=
  .node placed.1 placed.2

/-- The members of a list of expressions. -/
theorem Fits.exprs {parts : List (Part (Spanned Expr))} (row : Commas (parts.map Part.tokens) tokens)
    (each : ∀ part ∈ parts, Phrase.subexpr.Placed part.tokens part.value) :
    Fits tokens (exprOutlines (parts.map Part.value)) := by
  rw [exprOutlines_eq, List.map_map]
  exact .members row fun part member => .expr (each part member)

theorem Pattern.Derives.spans {pattern : Spanned Pattern} (derived : Pattern.Derives tokens pattern) :
    Spans tokens pattern.span := by
  cases derived with
  | int | float | string | true | false | wildcard | bind => exact .token _ _
  | variant => exact (Spans.token _ _).merge [_] (.token _ _)
  | variantOf => exact .enclosed _ _ _ _ (_ :: _ :: _ :: _)

theorem Pattern.Derives.placed {pattern : Spanned Pattern} (derived : Pattern.Derives tokens pattern) :
    Fits tokens [ofPattern pattern] := by
  refine .node derived.spans ?_
  cases derived with
  | int | float | string | true | false | wildcard | bind => exact .gap _
  | variant enumeration chosen => exact .named enumeration (.skip _ (.name chosen))
  | variantOf enumeration chosen colons start stop row =>
    have names := Fits.members row fun name _ => .name name
    exact .named enumeration (.skip _ (.named chosen (.skip _ (names.closed _))))

/-! ### Blocks -/

/-- Only nothing is made up of no tokens. -/
theorem Derives.items_nil {next : Nat} {statements : List (Spanned Expr)}
    {last : Option (Spanned Expr)} {height : Nat}
    (derived : Derives (.items next) [] (statements, last) height) : statements = [] ∧ last = none := by
  generalize none : ([] : Tokens) = tokens at derived
  cases derived with
  | nothing => exact ⟨rfl, rfl⟩
  | value _ _ inner =>
    subst none
    obtain ⟨_, _, same, _⟩ := inner.opened
    cases same
  | bound inner =>
    subst none
    cases inner
  | statement => exact absurd none.symm (List.append_ne_nil_of_right_ne_nil _ (List.cons_ne_nil _ _))
  | assign => cases none

/-- The rest of a block with statements lies over its tokens, if it does not end loosely. -/
theorem FitsBefore.remainder {before next : Nat} {statements : List (Spanned Expr)}
    {last : Option (Spanned Expr)} {height : Nat}
    (derived : Derives (.items next) tokens (statements, last) height)
    (placed : (Phrase.items next).Placed tokens (statements, last)) :
    (Phrase.rest before next).Placed tokens
      ⟨.block statements last, startBefore next tokens,
        max (Cursor.stopAfter before tokens) (startBefore next tokens)⟩ := by
  intro low high le le' between tidy
  obtain ⟨loosely, below, _⟩ := Tidy.cons_iff.mp tidy
  rw [Expr.outlines_block] at below
  cases tokens with
  | nil =>
    obtain ⟨rfl, rfl⟩ := derived.items_nil
    have ends : low ≤ next := Nat.le_trans between le'
    have same : max before next = next := Nat.max_eq_right (Nat.le_trans le ends)
    refine .inr ⟨?_, .cons ends (.nil (Nat.le_max_right _ _)) (.nil (Nat.le_of_eq same))⟩
    show (if Span.isEmpty ⟨next, max before next⟩ then some (max before next) else none) = some next
    rw [same, if_pos (by simp [Span.isEmpty, Span.length])]
  | cons first others =>
    obtain ⟨start, some, rest⟩ := between
    obtain ⟨tight, stop⟩ := rest.tight
    have ends := Nat.le_trans (Nat.le_of_lt some) tight.le
    have span : (⟨startBefore next (first :: others), max (Cursor.stopAfter before (first :: others))
        (startBefore next (first :: others))⟩ : Span) =
        ⟨first.span.start, Cursor.stopAfter first.span.stop others⟩ :=
      congrArg (Span.mk _) (Nat.max_eq_left ends)
    have children : Within first.span.start (Cursor.stopAfter first.span.stop others)
        ((statements ++ last.toList).map ofExpr) := by
      rcases placed _ _ (Nat.zero_le _) (Nat.le_trans stop le') ⟨Nat.le_refl _, some, tight⟩ below with
        within | ⟨loose, within⟩
      · exact within
      · refine within.mono (Nat.le_refl _) (Nat.le_of_not_lt fun shorter => loosely ?_)
        cases last with
        | none => cases loose
        | some last => exact endsLoosely_block.mpr ⟨next, loose, by rwa [span]⟩
    refine .inl ?_
    rw [span]
    refine .cons start ?_ (.nil stop)
    rwa [Expr.outlines_block]

/-- A node that ends where the last outline below it ends. -/
theorem FitsBefore.binding {next : Nat} {outlines : List Outline} {body : Spanned Expr}
    {rest : Option Nat} {opening : Token} {start : Span} {kind : NodeKind}
    (fits : FitsBefore 0 next tokens (outlines ++ [ofExpr body]) rest) :
    FitsBefore 0 next (⟨opening, start⟩ :: tokens)
      [.node (start.merge body.span) kind (outlines ++ [ofExpr body])] rest := by
  rintro low high - le' ⟨begins, some, between⟩ tidy
  have whole {limit : Nat} (within : Within start.stop limit (outlines ++ [ofExpr body])) :
      Within low limit [.node (start.merge body.span) kind (outlines ++ [ofExpr body])] := by
    obtain ⟨middle, before, behind⟩ := within.of_append
    obtain _ | ⟨starts, inner, ends⟩ := behind
    have opens : start.start < start.stop := some
    have le := before.le
    have le' := inner.le
    have same : start.merge body.span = ⟨start.start, body.span.stop⟩ := by
      rw [Span.merge, Nat.min_eq_left (by omega), Nat.max_eq_right (by omega)]
    rw [same]
    refine .cons begins ?_ (.nil ends.le)
    exact (before.append (.cons starts inner (.nil (Nat.le_refl _)))).mono (Nat.le_of_lt some)
      (Nat.le_refl _)
  rcases fits _ _ (Nat.zero_le _) le' between (Tidy.cons_iff.mp tidy).2.1 with within | within
  · exact .inl (whole within)
  · exact .inr ⟨within.1, whole within.2⟩

/-! ### Phrases -/

open ContractSyntax.Expr in
/-- The tree of a phrase lies over its tokens. -/
theorem Derives.placed {phrase : Phrase} {places : Tokens} {tree : phrase.Tree} {height : Nat}
    (derived : Derives phrase places tree height) : phrase.Placed places tree := by
  induction derived with
  -- operands
  | int | float | string | true | false | ret | it | var => exact ⟨.token _ _, .gap _⟩
  | unit => exact ⟨.enclosed _ _ _ _ [], .gap _⟩
  | paren _ _ _ inner => exact ⟨.enclosed _ _ _ _ _, .skip _ ((Fits.expr inner).closed _)⟩
  | array _ _ _ row _ each =>
    exact ⟨.enclosed _ _ _ _ _, .skip _ ((Fits.exprs row each).closed _)⟩
  | construct _ _ _ struct _ row _ each =>
    have fields := Fits.parts row each
    rw [← fieldOutlines_eq] at fields
    exact ⟨.enclosed _ _ _ _ (_ :: _ :: _), .skip _ (.named struct (.skip _ (fields.closed _)))⟩
  | call function _ _ _ row _ each =>
    exact ⟨(Spans.token _ _).closing (_ :: _) _ _,
      .named function (.skip _ ((Fits.exprs row each).closed _))⟩
  | variant enumeration chosen =>
    exact ⟨(Spans.token _ _).merge [_] (.token _ _), .named enumeration (.skip _ (.name chosen))⟩
  | variantOf enumeration chosen _ _ _ _ row _ each =>
    exact ⟨(Spans.token _ _).closing (_ :: _ :: _ :: _) _ _,
      .named enumeration (.skip _ (.named chosen (.skip _ ((Fits.exprs row each).closed _))))⟩
  | field name _ _ value => exact .named name (.skip _ (.expr value))
  -- suffixes
  | operand _ operand => exact operand
  | state _ _ _ _ receiver => exact ⟨receiver.1.closing [_] _ _, (Fits.expr receiver).append (.gap _)⟩
  | member name _ _ receiver =>
    exact ⟨receiver.1.closing [_] _ _, (Fits.expr receiver).append (.skip _ (.name name))⟩
  | methodCall method _ _ _ _ _ row _ receiver each =>
    exact ⟨receiver.1.closing (_ :: _ :: _ :: _) _ _, (Fits.expr receiver).append
      (.skip _ (.named method (.skip _ ((Fits.exprs row each).closed _))))⟩
  | index _ _ _ _ receiver position =>
    exact ⟨receiver.1.closing (_ :: _) _ _,
      (Fits.expr receiver).append (.skip _ ((Fits.expr position).closed _))⟩
  -- operators
  | unsigned _ operand => exact operand
  | least => exact ⟨(Spans.token _ _).merge [] (.token _ _), .gap _⟩
  | unary _ first others _ _ operand =>
    exact ⟨.leading _ _ others operand.1, .skip _ ((Fits.gap others).append (.expr operand))⟩
  | single _ _ operand => exact operand
  | binary _ _ _ _ _ left right =>
    exact ⟨left.1.merge [_] right.1, (Fits.expr left).append (.skip _ (.expr right))⟩
  -- constructs
  | nested _ inner | operators _ inner => exact inner
  | @conditional start middle last asked chosen _ _ _ _ _ _ _ _ _ _ condition yes no =>
    have spans := Spans.leading (.keyword .if_) start
      (asked ++ ⟨.keyword .then_, middle⟩ :: (chosen ++ [⟨.keyword .else_, last⟩])) no.1
    exact ⟨by simpa using spans, .skip _ ((Fits.expr condition).append
      (.skip _ ((Fits.expr yes).append (.skip _ (.expr no)))))⟩
  | @binding start equal semicolon _ name mark stated valued _ _ _ _ _ _ _ _ _ _ _ type value body =>
    have spans := Spans.leading (.keyword .let_) start (mark ++ name.ident :: (stated ++
      ⟨.symbol .equal, equal⟩ :: (valued ++ [⟨.symbol .semicolon, semicolon⟩]))) body.1
    refine ⟨by simpa using spans, ?_⟩
    rw [Expr.outlines_binding]
    exact .skip _ ((Fits.gap mark).append (.named name (type.append
      (.skip _ ((Fits.expr value).append (.skip _ (.expr body)))))))
  | @matching start opened stop before tokens _ _ _ _ row _ subject each =>
    have arms := Fits.parts row each
    rw [← armOutlines_eq] at arms
    have spans := Spans.enclosed (.keyword .match_) (.symbol .rightBrace) start stop
      (before ++ ⟨.symbol .leftBrace, opened⟩ :: tokens)
    exact ⟨by simpa using spans, .skip _ ((Fits.expr subject).append (.skip _ (arms.closed _)))⟩
  | arm _ pattern _ body => exact pattern.placed.append (.skip _ (.expr body))
  | @whileLoop start opened stop asked tokens _ _ _ _ _ _ condition body =>
    have spans := Spans.enclosed (.keyword .while_) (.symbol .rightBrace) start stop
      (asked ++ ⟨.symbol .leftBrace, opened⟩ :: tokens)
    exact ⟨by simpa using spans,
      .skip _ ((Fits.expr condition).append (.skip _ ((Fits.expr body).closed _)))⟩
  | @forLoop start within opened stop name ranged tokens _ _ _ _ _ _ range body =>
    have spans := Spans.enclosed (.keyword .for_) (.symbol .rightBrace) start stop
      (name.ident :: ⟨.keyword .in_, within⟩ :: (ranged ++ ⟨.symbol .leftBrace, opened⟩ :: tokens))
    exact ⟨by simpa using spans, .skip _ (.named name (.skip _ ((Fits.expr range).append
      (.skip _ ((Fits.expr body).closed _)))))⟩
  | block _ _ _ inner =>
    refine ⟨.enclosed _ _ _ _ _, ?_⟩
    rw [Expr.outlines_block]
    exact FitsBefore.enclosed inner
  -- blocks
  | nothing => exact Fits.nil.fitsBefore
  | value _ _ _ inner => exact (Fits.expr inner).fitsBefore
  | bound _ inner => exact inner
  | statement semicolon _ _ _ expr others =>
    exact .prepend (.expr expr) (.after ⟨_, semicolon⟩ (Nat.zero_le _) others)
  | @assign target equal semicolon _ tokens _ value _ _ _ _ _ _ placed others =>
    have statement : Fits (target.ident :: ⟨.symbol .equal, equal⟩ :: tokens)
        [ofExpr ⟨.assign target value, target.span.merge value.span⟩] :=
      .node ((Spans.token _ _).merge [_] placed.1) (.named target (.skip _ (.expr placed)))
    exact .prepend statement (.after ⟨_, semicolon⟩ (Nat.zero_le _) others)
  | @bindingRest start equal semicolon _ name _ mark _ _ _ type value body _ _ _ _ _ _ _ typed given
      rest =>
    have behind := FitsBefore.after ⟨.symbol .semicolon, semicolon⟩ (Nat.le_refl _) rest
    have given := FitsBefore.prepend (.expr given) behind
    have typed := FitsBefore.prepend typed (.after ⟨.symbol .equal, equal⟩ (Nat.zero_le _) given)
    have named := FitsBefore.prepend (.gap mark) (.prepend (.name name) typed)
    have same : ofName name :: (type.toList.map ofType ++ [ofExpr value, ofExpr body]) =
        (ofName name :: (type.toList.map ofType ++ [ofExpr value])) ++ [ofExpr body] := by simp
    simp only [Phrase.Placed, restEnd?_binding]
    rw [ofExpr, Expr.outlines_binding, same]
    exact .binding (same ▸ named)
  | lone _ _ inner =>
    exact fun low high _ => inner low high (Nat.zero_le _)
  | remainder _ derived _ inner => exact .remainder derived inner
  -- types
  | nestedType _ inner => exact inner
  | unstated => exact .nil
  | stated _ _ type => exact .skip _ (.type type)
  | primitive | named => exact ⟨.token _ _, .gap _⟩
  | unitType => exact ⟨.enclosed _ _ _ _ [], .gap _⟩
  | @reference _ mark _ _ _ isMutable _ _ target =>
    refine ⟨.leading _ _ mark target.1, .skip _ ?_⟩
    have inner := (Fits.gap mark).append target.2
    cases isMutable <;> exact inner
  | @arrayType start semicolon span stop digits _ _ tokens _ _ _ element =>
    have spans := Spans.enclosed (.symbol .leftBracket) (.symbol .rightBracket) start stop
      (tokens ++ [⟨.symbol .semicolon, semicolon⟩, ⟨.int digits, span⟩])
    have inner := element.2.append (.gap [⟨.symbol .semicolon, semicolon⟩, ⟨.int digits, span⟩,
      ⟨.symbol .rightBracket, stop⟩])
    rw [List.append_nil] at inner
    exact ⟨by simpa using spans, .skip _ inner⟩
  | refined _ _ _ _ _ _ row _ each =>
    exact ⟨.enclosed _ _ _ _ (_ :: _), .skip _ (.skip _ ((Fits.exprs row each).closed _))⟩

end ContractSyntax
