/-
**Outlines: where the nodes of a tree lie.**

An outline holds the span of each node that has one, and below it the nearest nodes with spans, in
the order of the text. The forms of blocks and bindings are told apart, since only their spans may
depend on what stands behind them.

* `Outline.Nested`: what the spans of a node and of the nodes below it should be like;
* `Outline.EndsLoosely`: the one way in which they are not;
* `Within`: outlines one after the other between two offsets, each with its children between its ends.
-/

import ContractSyntax.Tree.Item

namespace ContractSyntax

/-- What matters of a node besides its span. -/
inductive NodeKind where
  | binding
  /-- A block of nothing. -/
  | emptyBlock
  /-- A block with a value. -/
  | valueBlock
  /-- Anything else. -/
  | plain
  deriving DecidableEq

/-- What matters of an expression. -/
def Expr.nodeKind : Expr → NodeKind
  | binding .. => .binding
  | block [] none => .emptyBlock
  | block _ (some _) => .valueBlock
  | _ => .plain

/-- The spans of a tree. -/
inductive Outline where
  | node (span : Span) (kind : NodeKind) (children : List Outline)

namespace Outline

/-- The span of the node itself. -/
def span : Outline → Span
  | node span _ _ => span

/-- A name has no node below it. -/
def ofName (name : Name) : Outline := node name.span .plain []

/-- A pattern with the names in it. -/
def ofPattern (pattern : Spanned Pattern) : Outline :=
  node pattern.span .plain <|
    match pattern.node with
    | .variant enumeration chosen bindings =>
      ofName enumeration :: ofName chosen :: (bindings.getD []).map ofName
    | _ => []

end Outline

/-! ### Trees -/

open Outline

mutual

/-- The outlines below an expression. -/
def Expr.outlines : Expr → List Outline
  | .int _ | .float _ | .string _ | .bool _ | .unit | .var _ | .ret | .it => []
  | .binary ⟨left, first⟩ _ ⟨right, second⟩ =>
    [node first left.nodeKind left.outlines, node second right.nodeKind right.outlines]
  | .unary _ ⟨operand, span⟩ | .paren ⟨operand, span⟩ | .state ⟨operand, span⟩ _ =>
    [node span operand.nodeKind operand.outlines]
  | .conditional ⟨condition, first⟩ ⟨yes, second⟩ ⟨no, third⟩ =>
    [node first condition.nodeKind condition.outlines, node second yes.nodeKind yes.outlines,
      node third no.nodeKind no.outlines]
  | .binding _ name type ⟨value, first⟩ ⟨body, second⟩ =>
    ofName name ::
      ((match type with
        | none => []
        | some ⟨type, span⟩ => [node span .plain type.outlines]) ++
      [node first value.nodeKind value.outlines, node second body.nodeKind body.outlines])
  | .matching ⟨subject, span⟩ arms => node span subject.nodeKind subject.outlines :: armOutlines arms
  | .whileLoop ⟨condition, first⟩ ⟨body, second⟩ =>
    [node first condition.nodeKind condition.outlines, node second body.nodeKind body.outlines]
  | .forLoop name ⟨range, first⟩ ⟨body, second⟩ =>
    [ofName name, node first range.nodeKind range.outlines, node second body.nodeKind body.outlines]
  | .block statements none => exprOutlines statements
  | .block statements (some ⟨last, span⟩) =>
    exprOutlines statements ++ [node span last.nodeKind last.outlines]
  | .assign name ⟨value, span⟩ => [ofName name, node span value.nodeKind value.outlines]
  | .methodCall ⟨receiver, span⟩ method given =>
    node span receiver.nodeKind receiver.outlines :: ofName method :: exprOutlines given
  | .field ⟨receiver, span⟩ name => [node span receiver.nodeKind receiver.outlines, ofName name]
  | .index ⟨receiver, first⟩ ⟨position, second⟩ =>
    [node first receiver.nodeKind receiver.outlines, node second position.nodeKind position.outlines]
  | .call function given => ofName function :: exprOutlines given
  | .variant enumeration chosen none => [ofName enumeration, ofName chosen]
  | .variant enumeration chosen (some given) =>
    ofName enumeration :: ofName chosen :: exprOutlines given
  | .construct struct fields => ofName struct :: fieldOutlines fields
  | .array elements => exprOutlines elements

/-- The outlines below a type. -/
def Ty.outlines : Ty → List Outline
  | .primitive _ | .unit | .named _ => []
  | .reference target | .mutableReference target => target.outlines
  | .array element _ => element.outlines
  | .refined _ constraints => exprOutlines constraints

/-- Expressions one after the other. -/
def exprOutlines : List (Spanned Expr) → List Outline
  | [] => []
  | ⟨expr, span⟩ :: rest => node span expr.nodeKind expr.outlines :: exprOutlines rest

/-- The pattern and the value of an alternative. -/
def MatchArm.outlines : MatchArm → List Outline
  | .mk pattern ⟨body, span⟩ => [ofPattern pattern, node span body.nodeKind body.outlines]

/-- Alternatives one after the other. -/
def armOutlines : List MatchArm → List Outline
  | [] => []
  | arm :: rest => arm.outlines ++ armOutlines rest

/-- The name and the value of a field. -/
def FieldValue.outlines : FieldValue → List Outline
  | .mk name ⟨value, span⟩ => [ofName name, node span value.nodeKind value.outlines]

/-- Fields one after the other. -/
def fieldOutlines : List FieldValue → List Outline
  | [] => []
  | field :: rest => field.outlines ++ fieldOutlines rest

end

namespace Outline

/-- An expression with what is below it. -/
def ofExpr (expr : Spanned Expr) : Outline := node expr.span expr.node.nodeKind expr.node.outlines

/-- A type with what is below it. -/
def ofType (type : Spanned Ty) : Outline := node type.span .plain type.node.outlines

/-- An attribute with its name and arguments. -/
def ofAttribute (mark : Attribute) : Outline :=
  node mark.span .plain (ofName mark.name :: (mark.arguments.getD []).map ofExpr)

end Outline

/-- A name and its type. -/
def TypedName.outlines (typed : TypedName) : List Outline := [ofName typed.name, ofType typed.type]

/-- The name of a variant and the types of its parts. -/
def Variant.outlines (variant : Variant) : List Outline :=
  ofName variant.name :: (variant.parts.getD []).map ofType

/-- The label of a condition and the condition. -/
def Condition.outlines (condition : Condition) : List Outline :=
  condition.label.toList.map ofName ++ [ofExpr condition.condition]

/-- The conditions of a contract. -/
def Contract.outlines : Contract → List Outline
  | conditions list => list.flatMap Condition.outlines
  | clauses pre post => (pre.toList ++ post.toList).map ofExpr

/-- The outlines below a definition. -/
def Item.outlines : Item → List Outline
  | use item => item.path.map ofName
  | struct item =>
    item.attributes.map ofAttribute ++ ofName item.name :: item.fields.flatMap TypedName.outlines
  | enum item =>
    item.attributes.map ofAttribute ++ ofName item.name :: item.variants.flatMap Variant.outlines
  | function item =>
    item.attributes.map ofAttribute ++ ofName item.name ::
      (item.parameters.flatMap TypedName.outlines ++ (item.resultName.toList.map ofName ++
        ofType item.resultType :: (item.contract.toList.flatMap Contract.outlines ++
          [ofExpr item.body])))

/-- The definitions of a program. -/
def Program.outlines (program : Program) : List Outline :=
  program.items.map fun item => node item.span .plain item.outlines

/-! ### Nodes -/

mutual

/-- The node and those below it. -/
def Outline.nodes : Outline → List Outline
  | .node span kind children => .node span kind children :: allNodes children

/-- All nodes of some outlines. -/
def allNodes : List Outline → List Outline
  | [] => []
  | first :: rest => first.nodes ++ allNodes rest

end

@[simp] theorem allNodes_append (first second : List Outline) :
    allNodes (first ++ second) = allNodes first ++ allNodes second := by
  induction first with
  | nil => rfl
  | cons outline rest continued => simp [allNodes, continued]

/-- Whether the ends of a node are in order and in the text, and the nodes below it lie between
them, the nearest ones without overlap and in order. -/
def Outline.Nested (size : Nat) : Outline → Prop
  | node span _ children =>
    span.start ≤ span.stop ∧ span.stop ≤ size ∧
      (∀ below ∈ allNodes children,
        span.start ≤ below.span.start ∧ below.span.stop ≤ span.stop) ∧
      children.Pairwise fun first second =>
        first.span.stop ≤ second.span.start ∧ first.span.start ≤ second.span.start

/-- Whether the spans in a program of a text of `size` bytes are nested, and those of its
definitions apart and increasing. -/
def Program.Nested (size : Nat) (program : Program) : Prop :=
  (∀ outline ∈ allNodes program.outlines, outline.Nested size) ∧
    program.outlines.Pairwise fun first second =>
      first.span.stop ≤ second.span.start ∧ first.span.start < second.span.start

instance (size : Nat) : (outline : Outline) → Decidable (outline.Nested size)
  | .node _ _ _ => inferInstanceAs (Decidable (_ ∧ _ ∧ _ ∧ _))

instance (size : Nat) (program : Program) : Decidable (program.Nested size) :=
  inferInstanceAs (Decidable (_ ∧ _))

mutual

/-- Where the empty rest of a block lies in which a node ends: the node is the rest, or a binding
before it. -/
def Outline.restEnd? : Outline → Option Nat
  | .node span .emptyBlock _ => if span.isEmpty then some span.stop else none
  | .node _ .binding children => lastEnd? children
  | .node .. => none

/-- Where the empty rest of a block lies in which the last of some nodes ends. -/
def lastEnd? : List Outline → Option Nat
  | [] => none
  | [last] => last.restEnd?
  | _ :: rest => lastEnd? rest

end

/-- Whether a node is a block that ends before the empty rest in which its value ends. -/
def Outline.EndsLoosely : Outline → Prop
  | node span .valueBlock children => ∃ offset, lastEnd? children = some offset ∧ span.stop < offset
  | _ => False

theorem lastEnd?_append (outlines : List Outline) (last : Outline) :
    lastEnd? (outlines ++ [last]) = last.restEnd? := by
  induction outlines with
  | nil => rfl
  | cons first rest continued =>
    cases rest with
    | nil => rfl
    | cons => exact continued

mutual

/-- The rest in which a node ends is one of its nodes. -/
theorem Outline.mem_of_restEnd? {offset : Nat} :
    (outline : Outline) → outline.restEnd? = some offset →
      ∃ node ∈ outline.nodes, node.span.stop = offset
  | .node span .emptyBlock children, here => by
    refine ⟨_, List.mem_cons_self, ?_⟩
    simp only [Outline.restEnd?] at here
    split at here
    · exact Option.some.inj here
    · cases here
  | .node span .binding children, here => by
    obtain ⟨node, member, same⟩ := mem_of_lastEnd? children here
    exact ⟨node, List.mem_cons_of_mem _ member, same⟩

theorem mem_of_lastEnd? {offset : Nat} :
    (outlines : List Outline) → lastEnd? outlines = some offset →
      ∃ node ∈ allNodes outlines, node.span.stop = offset
  | [last], here => by
    obtain ⟨node, member, same⟩ := Outline.mem_of_restEnd? last here
    exact ⟨node, List.mem_append_left _ member, same⟩
  | first :: second :: rest, here => by
    obtain ⟨node, member, same⟩ := mem_of_lastEnd? (second :: rest) here
    exact ⟨node, List.mem_append_right _ member, same⟩

end

/-! ### Equations -/

theorem exprOutlines_eq (exprs : List (Spanned Expr)) : exprOutlines exprs = exprs.map ofExpr := by
  induction exprs with
  | nil => rfl
  | cons expr rest continued => rw [exprOutlines, continued]; rfl

theorem armOutlines_eq (arms : List MatchArm) : armOutlines arms = arms.flatMap MatchArm.outlines := by
  induction arms with
  | nil => rfl
  | cons arm rest continued => rw [armOutlines, continued]; rfl

theorem fieldOutlines_eq (fields : List FieldValue) :
    fieldOutlines fields = fields.flatMap FieldValue.outlines := by
  induction fields with
  | nil => rfl
  | cons field rest continued => rw [fieldOutlines, continued]; rfl

theorem Expr.outlines_binding (isMutable : Bool) (name : Name) (type : Option (Spanned Ty))
    (value body : Spanned Expr) :
    (Expr.binding isMutable name type value body).outlines =
      ofName name :: (type.toList.map ofType ++ [ofExpr value, ofExpr body]) := by
  cases type <;> rfl

theorem Expr.outlines_block (statements : List (Spanned Expr)) (last : Option (Spanned Expr)) :
    (Expr.block statements last).outlines = (statements ++ last.toList).map ofExpr := by
  cases last with
  | none => simp [Expr.outlines, exprOutlines_eq]
  | some last =>
    simp only [Expr.outlines, exprOutlines_eq, Option.toList_some, List.map_append]
    rfl

/-- A binding ends where its body does. -/
theorem restEnd?_binding (isMutable : Bool) (name : Name) (type : Option (Spanned Ty))
    (value body : Spanned Expr) (span : Span) :
    (ofExpr ⟨.binding isMutable name type value body, span⟩).restEnd? = (ofExpr body).restEnd? := by
  have last := lastEnd?_append (ofName name :: (type.toList.map ofType ++ [ofExpr value])) (ofExpr body)
  rw [List.cons_append, List.append_assoc] at last
  rw [ofExpr, Expr.outlines_binding]
  exact last

/-- A block ends loosely if it ends before the rest in which its value ends. -/
theorem endsLoosely_block {statements : List (Spanned Expr)} {last : Spanned Expr} {span : Span} :
    (ofExpr ⟨.block statements (some last), span⟩).EndsLoosely ↔
      ∃ offset, (ofExpr last).restEnd? = some offset ∧ span.stop < offset := by
  have kind : (Expr.block statements (some last)).nodeKind = .valueBlock := by
    cases statements <;> rfl
  rw [ofExpr, Expr.outlines_block, kind, Outline.EndsLoosely, Option.toList_some, List.map_append,
    List.map_singleton, lastEnd?_append]

/-! ### Outlines between two offsets -/

/-- Whether outlines lie one after the other between two offsets, each with its children between its
own ends. -/
inductive Within : Nat → Nat → List Outline → Prop
  | nil {low high : Nat} (le : low ≤ high) : Within low high []
  | cons {low high : Nat} {span : Span} {kind : NodeKind} {children rest : List Outline}
      (start : low ≤ span.start) (inner : Within span.start span.stop children)
      (others : Within span.stop high rest) : Within low high (.node span kind children :: rest)

namespace Within

variable {low middle high : Nat} {outlines others : List Outline}

theorem le (within : Within low high outlines) : low ≤ high := by
  induction within with
  | nil le => exact le
  | cons start _ _ inner others => exact Nat.le_trans start (Nat.le_trans inner others)

theorem append (before : Within low middle outlines) (after : Within middle high others) :
    Within low high (outlines ++ others) := by
  induction before with
  | nil le =>
    cases after with
    | nil le' => exact .nil (Nat.le_trans le le')
    | cons start inner rest => exact .cons (Nat.le_trans le start) inner rest
  | cons start inner _ _ continued => exact .cons start inner (continued after)

theorem mono {lower higher : Nat} (within : Within low high outlines) (le : lower ≤ low)
    (le' : high ≤ higher) : Within lower higher outlines := by
  induction within generalizing lower with
  | nil inside => exact .nil (Nat.le_trans le (Nat.le_trans inside le'))
  | cons start inner _ _ continued =>
    exact .cons (Nat.le_trans le start) inner (continued (Nat.le_refl _) le')

/-- Outlines one after the other lie on either side of an offset. -/
theorem of_append (within : Within low high (outlines ++ others)) :
    ∃ middle, Within low middle outlines ∧ Within middle high others := by
  induction outlines generalizing low with
  | nil => exact ⟨low, .nil (Nat.le_refl _), within⟩
  | cons outline rest continued =>
    cases within with
    | cons start inner behind =>
      obtain ⟨middle, before, after⟩ := continued behind
      exact ⟨middle, .cons start inner before, after⟩

/-- Outlines that follow each other end and begin in order. -/
theorem pairwise (within : Within low high outlines) :
    (∀ outline ∈ outlines, low ≤ outline.span.start) ∧
      outlines.Pairwise fun first second =>
        first.span.stop ≤ second.span.start ∧ first.span.start ≤ second.span.start := by
  induction within with
  | nil => exact ⟨nofun, .nil⟩
  | @cons low _ span _ _ _ start inner _ _ continued =>
    obtain ⟨later, ordered⟩ := continued
    have ends : span.start ≤ span.stop := inner.le
    refine ⟨?_, .cons ?_ ordered⟩
    · intro outline member
      rcases List.mem_cons.mp member with rfl | member
      · exact start
      · exact Nat.le_trans start (Nat.le_trans ends (later outline member))
    · exact fun outline member => ⟨later outline member, Nat.le_trans ends (later outline member)⟩

/-- What lies between two offsets is nested, and all below it lies there too. -/
theorem nested {size : Nat} (within : Within low high outlines) (inside : high ≤ size) :
    ∀ node ∈ allNodes outlines,
      low ≤ node.span.start ∧ node.span.stop ≤ high ∧ node.Nested size := by
  induction within with
  | nil => nofun
  | @cons low high span kind children rest start inner others below continued =>
    have ends : span.start ≤ span.stop := inner.le
    have stops : span.stop ≤ high := others.le
    intro node member
    rw [allNodes, Outline.nodes, List.cons_append, List.mem_cons, List.mem_append] at member
    rcases member with rfl | member | member
    · refine ⟨start, stops, ends, Nat.le_trans stops inside, ?_, inner.pairwise.2⟩
      intro node member
      obtain ⟨starts, stops', _⟩ := below (Nat.le_trans stops inside) node member
      exact ⟨starts, stops'⟩
    · obtain ⟨starts, stops', nested⟩ := below (Nat.le_trans stops inside) node member
      exact ⟨Nat.le_trans start starts, Nat.le_trans stops' stops, nested⟩
    · obtain ⟨starts, stops', nested⟩ := continued inside node member
      exact ⟨Nat.le_trans start (Nat.le_trans ends starts), stops', nested⟩

end Within

/-- Whether none of the nodes of some outlines is a block that ends loosely. -/
def Tidy (outlines : List Outline) : Prop := ∀ outline ∈ allNodes outlines, ¬ outline.EndsLoosely

namespace Tidy

theorem append_iff {first second : List Outline} :
    Tidy (first ++ second) ↔ Tidy first ∧ Tidy second := by
  simp only [Tidy, allNodes_append, List.forall_mem_append]

theorem cons_iff {span : Span} {kind : NodeKind} {children rest : List Outline} :
    Tidy (.node span kind children :: rest) ↔
      ¬ (Outline.node span kind children).EndsLoosely ∧ Tidy children ∧ Tidy rest := by
  simp only [Tidy, allNodes, Outline.nodes, List.cons_append, List.forall_mem_cons,
    List.forall_mem_append]

end Tidy

/-- If all nodes are nested, none of them is a block that ends loosely. -/
theorem tidy_of_nested {size : Nat} {outlines : List Outline}
    (nested : ∀ outline ∈ allNodes outlines, outline.Nested size) : Tidy outlines := by
  intro outline member loosely
  obtain ⟨span, kind, children⟩ := outline
  obtain ⟨_, _, covers, _⟩ := nested _ member
  cases kind with
  | valueBlock =>
    obtain ⟨offset, last, shorter⟩ := loosely
    obtain ⟨node, below, rfl⟩ := mem_of_lastEnd? children last
    exact absurd (covers node below).2 (Nat.not_le.mpr shorter)
  | binding | emptyBlock | plain => exact loosely

end ContractSyntax
