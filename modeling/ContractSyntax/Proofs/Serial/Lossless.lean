/-
**Trees are kept by their data.**

A tree is decoded from the data it is written as, whatever spans, numbers and texts it holds and
whether or not it was read from a text. So no two trees are written as the same data. Only offsets
are bounded: they are words of 64 bits, and no tree is decoded from data in which one of them is not.

* `Restores`: what decoding comes to, told by the places of the nodes; one lemma for each way in
  which decoders are put together;
* `Restoring`: the same for all parts that expressions and types are made of, in data of a given
  depth;
* `trees_lossless`: for programs and all their parts.
-/

import ContractSyntax.Proofs.Places.Outline
import ContractSyntax.Serial.Decode
import Mathlib.Data.List.Basic

namespace ContractSyntax

open Outline Value

/-! ### Offsets of 64 bits -/

/-- Whether the ends of all nodes are words of 64 bits. -/
def Addressable (outlines : List Outline) : Prop :=
  ∀ node ∈ allNodes outlines, node.span.start < UInt64.size ∧ node.span.stop < UInt64.size

instance (outlines : List Outline) : Decidable (Addressable outlines) :=
  inferInstanceAs (Decidable (∀ node ∈ allNodes outlines, _))

@[simp] theorem addressable_nil : Addressable [] := List.forall_mem_nil _

@[simp] theorem addressable_append {first second : List Outline} :
    Addressable (first ++ second) ↔ Addressable first ∧ Addressable second := by
  unfold Addressable
  rw [allNodes_append, List.forall_mem_append]

@[simp] theorem addressable_node {span : Span} {kind : NodeKind} {below rest : List Outline} :
    Addressable (node span kind below :: rest) ↔
      (span.start < UInt64.size ∧ span.stop < UInt64.size) ∧ Addressable below ∧
        Addressable rest := by
  have row : allNodes (node span kind below :: rest) =
      node span kind below :: (allNodes below ++ allNodes rest) := rfl
  unfold Addressable
  rw [row, List.forall_mem_cons, List.forall_mem_append]
  rfl

/-! ### What decoding comes to -/

/-- Whether decoding comes to a tree whose nodes are as outlined, if their ends are words of 64
bits, and to nothing otherwise. -/
def Restores {α : Type} (decoded : Option α) (tree : α) (outlines : List Outline) : Prop :=
  decoded = if Addressable outlines then some tree else none

namespace Restores

variable {α β : Type} {decoded : Option α} {tree : α} {outlines others : List Outline}

theorem congr (restores : Restores decoded tree outlines)
    (same : Addressable outlines ↔ Addressable others) : Restores decoded tree others := by
  unfold Restores at *
  rw [restores]
  exact if_congr same rfl rfl

theorem ofEq (restores : Restores decoded tree outlines) (same : outlines = others) :
    Restores decoded tree others :=
  same ▸ restores

/-- A tree without spans. -/
theorem plain (same : decoded = some tree) : Restores decoded tree [] := by
  unfold Restores
  rw [same, if_pos addressable_nil]

theorem map {make : α → β} (restores : Restores decoded tree outlines) :
    Restores (decoded.map make) (make tree) outlines := by
  unfold Restores at *
  rw [restores]
  split <;> rfl

/-- The last part of a tree. -/
theorem last {make : α → β} (restores : Restores decoded tree outlines) :
    Restores (decoded >>= fun tree => pure (make tree)) (make tree) outlines := by
  unfold Restores at *
  rw [restores]
  split <;> rfl

/-- A part of a tree with further parts behind it. -/
theorem bind {next : α → Option β} {whole : β} (first : Restores decoded tree outlines)
    (second : Restores (next tree) whole others) :
    Restores (decoded >>= next) whole (outlines ++ others) := by
  unfold Restores at *
  rw [first]
  by_cases fits : Addressable outlines
  · simp [fits, second]
  · simp [fits]

/-! ### Spans, lists and optional parts -/

theorem offset (offset : Nat) :
    decodeOffset (nat offset) = if offset < UInt64.size then some offset else none := by
  by_cases fits : offset < UInt64.size
  · have word : 0 ≤ (offset : Int) ∧ (offset : Int) < (UInt64.size : Nat) :=
      ⟨Int.natCast_nonneg _, Int.ofNat_lt.mpr fits⟩
    simp only [decodeOffset, nat, uint64?, if_pos word, if_pos fits, Int.toNat_natCast,
      Option.map_some, UInt64.toNat_ofNat_of_lt' fits]
  · have word : ¬ (0 ≤ (offset : Int) ∧ (offset : Int) < (UInt64.size : Nat)) :=
      fun within => fits (Int.ofNat_lt.mp within.2)
    simp only [decodeOffset, nat, uint64?, if_neg word, if_neg fits, Option.map_none]

/-- A span is a node with nothing below it. -/
theorem span (span : Span) : Restores (Span.decode span.encode) span [node span .plain []] := by
  have decoded : Span.decode span.encode = (do
      return ⟨← decodeOffset (nat span.start), ← decodeOffset (nat span.stop)⟩) := rfl
  unfold Restores
  rw [decoded, offset, offset]
  by_cases start : span.start < UInt64.size
  · by_cases stop : span.stop < UInt64.size
    · simp [start, stop]
    · simp [start, stop]
  · simp [start]

/-- A tree with its span is a node above the nodes of the tree. -/
theorem spanned {encode : α → Value} {decode : Value → Option α} {place : Spanned α}
    (kind : NodeKind) (inside : Restores (decode (encode place.node)) place.node outlines) :
    Restores (Spanned.decode decode (place.encode encode)) place
      [node place.span kind outlines] := by
  have both : Restores (Spanned.decode decode (place.encode encode)) place
      (outlines ++ [node place.span .plain []]) := inside.bind (span place.span).last
  refine both.congr ?_
  simp only [addressable_append, addressable_node, addressable_nil, and_true]
  exact and_comm

theorem name (name : Name) : Restores (decodeName (encodeName name)) name [ofName name] :=
  spanned .plain (plain rfl)

theorem list {encode : α → Value} {decode : Value → Option α} {outlined : α → List Outline}
    {items : List α} (each : ∀ item ∈ items, Restores (decode (encode item)) item (outlined item)) :
    Restores (list? decode (Value.list encode items)) items (items.flatMap outlined) := by
  show Restores ((items.map encode).mapM decode) _ _
  induction items with
  | nil => exact plain rfl
  | cons item rest continued =>
    obtain ⟨here, later⟩ := List.forall_mem_cons.mp each
    rw [List.map_cons, List.mapM_cons, List.flatMap_cons]
    exact here.bind (continued later).last

/-- A list of trees that are a node each. -/
theorem nodes {encode : α → Value} {decode : Value → Option α} {outline : α → Outline}
    {items : List α} (each : ∀ item ∈ items, Restores (decode (encode item)) item [outline item]) :
    Restores (list? decode (Value.list encode items)) items (items.map outline) :=
  (list each).ofEq List.map_eq_flatMap.symm

/-- An optional part, which is not written as one that is absent. -/
theorem optional {encode : α → Value} {decode : Value → Option α} {outlined : α → List Outline}
    {part : Option α}
    (present : ∀ value, optional? decode (some (encode value)) = (decode (encode value)).map some)
    (inside : ∀ value ∈ part, Restores (decode (encode value)) value (outlined value)) :
    Restores (optional? decode (some (Value.optional encode part))) part
      (part.toList.flatMap outlined) := by
  cases part with
  | none => exact plain rfl
  | some value =>
    have here : Restores ((decode (encode value)).map some) (some value) (outlined value) :=
      (inside value rfl).map
    rw [Value.optional, present, Option.toList_some, List.flatMap_singleton]
    exact here

/-- An optional part that is one node. -/
theorem optionalNode {encode : α → Value} {decode : Value → Option α} {outline : α → Outline}
    {part : Option α}
    (present : ∀ value, optional? decode (some (encode value)) = (decode (encode value)).map some)
    (inside : ∀ value ∈ part, Restores (decode (encode value)) value [outline value]) :
    Restores (optional? decode (some (Value.optional encode part))) part
      (part.toList.map outline) :=
  (optional present inside).ofEq List.map_eq_flatMap.symm

/-- An optional list of nodes. -/
theorem optionalNodes {encode : α → Value} {decode : Value → Option α} {outline : α → Outline}
    {parts : Option (List α)}
    (each : ∀ items ∈ parts, ∀ item ∈ items,
      Restores (decode (encode item)) item [outline item]) :
    Restores (optional? (list? decode) (some (Value.optional (Value.list encode) parts))) parts
      ((parts.getD []).map outline) := by
  cases parts with
  | none => exact plain rfl
  | some items => exact (nodes (each items rfl)).map

end Restores

/-! ### Labels, numbers and patterns -/

theorem Primitive.decode_label (base : Primitive) :
    Primitive.decode (.string base.label) = some base := by
  cases base <;> rfl

theorem BinaryOperator.decode_label (operator : BinaryOperator) :
    BinaryOperator.decode (.string operator.label) = some operator := by
  cases operator <;> rfl

theorem UnaryOperator.decode_label (operator : UnaryOperator) :
    UnaryOperator.decode (.string operator.label) = some operator := by
  cases operator <;> rfl

theorem Moment.decode_label (moment : Moment) :
    Moment.decode (.string moment.label) = some moment := by
  cases moment <;> rfl

theorem Visibility.decode_label (visibility : Visibility) :
    Visibility.decode (.string visibility.label) = some visibility := by
  cases visibility <;> rfl

theorem int64?_toInt (value : Int64) : int64? (.int value.toInt) = some value := by
  have range : -(int64Bound : Int) ≤ value.toInt ∧ value.toInt < (int64Bound : Int) :=
    ⟨value.le_toInt, value.toInt_lt⟩
  rw [int64?, if_pos range, Int64.ofInt_toInt]

theorem uint64?_toNat (value : UInt64) : uint64? (nat value.toNat) = some value := by
  have range : 0 ≤ (value.toNat : Int) ∧ (value.toNat : Int) < (UInt64.size : Nat) :=
    ⟨Int.natCast_nonneg _, Int.ofNat_lt.mpr value.toNat_lt_size⟩
  rw [nat, uint64?, if_pos range, Int.toNat_natCast, UInt64.ofNat_toNat]

/-- The names in a pattern. -/
def Pattern.outlines : Pattern → List Outline
  | variant enumeration chosen bindings =>
    ofName enumeration :: ofName chosen :: (bindings.getD []).map ofName
  | _ => []

theorem ofPattern_eq (pattern : Spanned Pattern) :
    ofPattern pattern = node pattern.span .plain pattern.node.outlines := by
  obtain ⟨pattern, span⟩ := pattern
  cases pattern <;> rfl

theorem PatternLiteral.restores (value : PatternLiteral) :
    Restores (PatternLiteral.decode value.encode) value [] := by
  cases value with
  | int value => exact (Restores.plain (int64?_toInt value)).map
  | float value => exact .plain rfl
  | string content => exact .plain rfl
  | bool value => exact .plain rfl

theorem Pattern.restores (pattern : Pattern) :
    Restores (Pattern.decode pattern.encode) pattern pattern.outlines := by
  cases pattern with
  | wildcard => exact .plain rfl
  | bind name => exact .plain rfl
  | literal value => exact value.restores.map
  | variant enumeration chosen bindings =>
    have names : Restores (optional? (list? decodeName)
        (some (Value.optional (Value.list encodeName) bindings))) bindings
        ((bindings.getD []).map ofName) :=
      .optionalNodes fun _ _ name _ => .name name
    exact (Restores.name enumeration).bind (.bind (.name chosen) names.last)

/-! ### Expressions and types -/

section Depth

variable {depth : Nat}

theorem Value.depth_pos (value : Value) : 0 < value.depth := by
  cases value <;> simp [Value.depth]

theorem Value.depth_lt_of_mem_items {items : List Value} {item : Value} (member : item ∈ items) :
    item.depth < (array items).depth := by
  have inside : item.depth ≤ depthOfItems items := by
    induction items with
    | nil => cases member
    | cons first rest continued =>
      rcases List.mem_cons.mp member with rfl | later
      · exact Nat.le_max_left _ _
      · exact Nat.le_trans (continued later) (Nat.le_max_right _ _)
  exact Nat.lt_succ_of_le inside

theorem Value.depth_lt_of_mem_fields {fields : List (String × Value)} {field : String × Value}
    (member : field ∈ fields) : field.2.depth < (object fields).depth := by
  have inside : field.2.depth ≤ depthOfFields fields := by
    induction fields with
    | nil => cases member
    | cons first rest continued =>
      rcases List.mem_cons.mp member with rfl | later
      · exact Nat.le_max_left _ _
      · exact Nat.le_trans (continued later) (Nat.le_max_right _ _)
  exact Nat.lt_succ_of_le inside

/-- The fields of data that is not too deep. -/
theorem fields_within {fields : List (String × Value)} (fits : (object fields).depth ≤ depth + 1) :
    fields.Forall fun field => field.2.depth ≤ depth :=
  List.forall_iff_forall_mem.mpr fun _ member =>
    Nat.le_of_lt_succ (Nat.lt_of_lt_of_le (depth_lt_of_mem_fields member) fits)

/-- The content of a variant that is not too deep. -/
theorem content_within {name : String} {content : Value}
    (fits : (Value.variant name content).depth ≤ depth + 1) : content.depth ≤ depth :=
  fields_within fits

/-- The parts of a variant that is not too deep. -/
theorem parts_within {name : String} {fields : List (String × Value)}
    (fits : (Value.variant name (object fields)).depth ≤ depth + 1) :
    fields.Forall fun field => field.2.depth ≤ depth :=
  fields_within (Nat.le_succ_of_le (content_within fits))

/-- The items of a list that is not too deep. -/
theorem item_within {α : Type} {encode : α → Value} {items : List α}
    (fits : (Value.list encode items).depth ≤ depth) {item : α} (member : item ∈ items) :
    (encode item).depth ≤ depth := by
  have inside : (encode item).depth < (Value.list encode items).depth :=
    Value.depth_lt_of_mem_items (List.mem_map_of_mem member)
  exact Nat.le_of_lt (Nat.lt_of_lt_of_le inside fits)

theorem encodeSpanned_eq (place : Spanned Expr) :
    encodeSpanned place = place.encode Expr.encode := by
  cases place
  rfl

theorem encodeExprs_eq (exprs : List (Spanned Expr)) :
    array (encodeExprs exprs) = Value.list encodeSpanned exprs := by
  refine congrArg array ?_
  induction exprs with
  | nil => rfl
  | cons expr rest continued => rw [encodeExprs, continued]; rfl

theorem encodeArms_eq (arms : List MatchArm) :
    array (encodeArms arms) = Value.list MatchArm.encode arms := by
  refine congrArg array ?_
  induction arms with
  | nil => rfl
  | cons arm rest continued => rw [encodeArms, continued]; rfl

theorem encodeFields_eq (fields : List FieldValue) :
    array (encodeFields fields) = Value.list FieldValue.encode fields := by
  refine congrArg array ?_
  induction fields with
  | nil => rfl
  | cons field rest continued => rw [encodeFields, continued]; rfl

/-- Whether all parts of expressions and types are restored from data that is not deeper than
stated. -/
structure Restoring (depth : Nat) : Prop where
  expr : ∀ expr : Expr, expr.encode.depth ≤ depth →
    Restores (Expr.decodeWithin depth expr.encode) expr expr.outlines
  type : ∀ type : Ty, type.encode.depth ≤ depth →
    Restores (Ty.decodeWithin depth type.encode) type type.outlines
  arm : ∀ arm : MatchArm, arm.encode.depth ≤ depth →
    Restores (MatchArm.decodeWithin depth arm.encode) arm arm.outlines
  field : ∀ field : FieldValue, field.encode.depth ≤ depth →
    Restores (FieldValue.decodeWithin depth field.encode) field field.outlines

namespace Restoring

theorem zero : Restoring 0 where
  expr _ fits := absurd (Value.depth_pos _) (Nat.not_lt.mpr fits)
  type _ fits := absurd (Value.depth_pos _) (Nat.not_lt.mpr fits)
  arm _ fits := absurd (Value.depth_pos _) (Nat.not_lt.mpr fits)
  field _ fits := absurd (Value.depth_pos _) (Nat.not_lt.mpr fits)

variable (below : Restoring depth)

include below

theorem spanned (place : Spanned Expr) (fits : (encodeSpanned place).depth ≤ depth) :
    Restores (Spanned.decode (Expr.decodeWithin depth) (encodeSpanned place)) place
      [ofExpr place] := by
  rw [encodeSpanned_eq] at fits ⊢
  have inside : place.node.encode.depth ≤ depth :=
    (fields_within (Nat.le_succ_of_le fits)).1
  exact .spanned _ (below.expr place.node inside)

theorem spannedType (place : Spanned Ty) (fits : (place.encode Ty.encode).depth ≤ depth) :
    Restores (Spanned.decode (Ty.decodeWithin depth) (place.encode Ty.encode)) place
      [ofType place] := by
  have inside : place.node.encode.depth ≤ depth :=
    (fields_within (Nat.le_succ_of_le fits)).1
  exact .spanned _ (below.type place.node inside)

theorem exprs (exprs : List (Spanned Expr)) (fits : (array (encodeExprs exprs)).depth ≤ depth) :
    Restores (list? (Spanned.decode (Expr.decodeWithin depth)) (array (encodeExprs exprs))) exprs
      (exprOutlines exprs) := by
  rw [encodeExprs_eq] at fits ⊢
  rw [exprOutlines_eq]
  exact .nodes fun expr member => below.spanned expr (item_within fits member)

theorem arms (arms : List MatchArm) (fits : (array (encodeArms arms)).depth ≤ depth) :
    Restores (list? (MatchArm.decodeWithin depth) (array (encodeArms arms))) arms
      (armOutlines arms) := by
  rw [encodeArms_eq] at fits ⊢
  rw [armOutlines_eq]
  exact .list fun arm member => below.arm arm (item_within fits member)

theorem fields (fields : List FieldValue) (fits : (array (encodeFields fields)).depth ≤ depth) :
    Restores (list? (FieldValue.decodeWithin depth) (array (encodeFields fields))) fields
      (fieldOutlines fields) := by
  rw [encodeFields_eq] at fits ⊢
  rw [fieldOutlines_eq]
  exact .list fun field member => below.field field (item_within fits member)

/-- Parts of an expression that are absent or present together with their outlines. -/
theorem stated (type : Option (Spanned Ty)) (fits : (encodeStated type).depth ≤ depth) :
    Restores (optional? (Spanned.decode (Ty.decodeWithin depth)) (some (encodeStated type))) type
      (type.toList.map ofType) := by
  cases type with
  | none => exact .plain rfl
  | some place => exact (below.spannedType place fits).map

theorem lastExpr (last : Option (Spanned Expr)) (fits : (encodeLast last).depth ≤ depth) :
    Restores (optional? (Spanned.decode (Expr.decodeWithin depth)) (some (encodeLast last))) last
      (last.toList.map ofExpr) := by
  cases last with
  | none => exact .plain rfl
  | some place =>
    obtain ⟨expr, span⟩ := place
    exact (below.spanned ⟨expr, span⟩ fits).map

theorem arguments (given : Option (List (Spanned Expr)))
    (fits : (encodeArguments given).depth ≤ depth) :
    Restores (optional? (list? (Spanned.decode (Expr.decodeWithin depth)))
      (some (encodeArguments given))) given (exprOutlines (given.getD [])) := by
  cases given with
  | none => exact .plain rfl
  | some exprs => exact (below.exprs exprs fits).map

theorem succ_expr (expr : Expr) (fits : expr.encode.depth ≤ depth + 1) :
    Restores (Expr.decodeWithin (depth + 1) expr.encode) expr expr.outlines := by
  cases expr with
  | int value => exact (Restores.plain (int64?_toInt value)).map
  | float | string | bool | unit | var | ret | it => exact .plain rfl
  | binary left operator right =>
    obtain ⟨first, -, second⟩ := parts_within fits
    exact (below.spanned left first).bind
      (.bind (.plain operator.decode_label) (below.spanned right second).last)
  | unary operator operand =>
    obtain ⟨-, inside⟩ := parts_within fits
    exact .bind (.plain operator.decode_label) (below.spanned operand inside).last
  | conditional condition yes no =>
    obtain ⟨first, second, third⟩ := parts_within fits
    exact (below.spanned condition first).bind
      (.bind (below.spanned yes second) (below.spanned no third).last)
  | binding isMutable name type value body =>
    obtain ⟨-, -, first, second, third⟩ := parts_within fits
    rw [Expr.outlines_binding]
    exact .bind (.plain rfl) (.bind (.name name) (.bind (below.stated type first)
      (.bind (below.spanned value second) (below.spanned body third).last)))
  | matching subject arms =>
    obtain ⟨first, second⟩ := parts_within fits
    exact (below.spanned subject first).bind (below.arms arms second).last
  | whileLoop condition body =>
    obtain ⟨first, second⟩ := parts_within fits
    exact (below.spanned condition first).bind (below.spanned body second).last
  | forLoop name range body =>
    obtain ⟨-, first, second⟩ := parts_within fits
    exact .bind (.name name) (.bind (below.spanned range first) (below.spanned body second).last)
  | block statements last =>
    obtain ⟨first, second⟩ := parts_within fits
    rw [Expr.outlines_block, List.map_append, ← exprOutlines_eq]
    exact (below.exprs statements first).bind (below.lastExpr last second).last
  | assign name value =>
    obtain ⟨-, inside⟩ := parts_within fits
    exact .bind (.name name) (below.spanned value inside).last
  | methodCall receiver method given =>
    obtain ⟨first, -, second⟩ := parts_within fits
    exact (below.spanned receiver first).bind (.bind (.name method) (below.exprs given second).last)
  | field receiver name =>
    obtain ⟨inside, -⟩ := parts_within fits
    exact (below.spanned receiver inside).bind (Restores.name name).last
  | index receiver position =>
    obtain ⟨first, second⟩ := parts_within fits
    exact (below.spanned receiver first).bind (below.spanned position second).last
  | state receiver moment =>
    obtain ⟨inside, -⟩ := parts_within fits
    exact (below.spanned receiver inside).bind (Restores.plain moment.decode_label).last
  | call function given =>
    obtain ⟨-, inside⟩ := parts_within fits
    exact .bind (.name function) (below.exprs given inside).last
  | variant enumeration chosen given =>
    obtain ⟨-, -, inside⟩ := parts_within fits
    have names : (Expr.variant enumeration chosen given).outlines =
        ofName enumeration :: ofName chosen :: exprOutlines (given.getD []) := by
      cases given <;> rfl
    rw [names]
    exact .bind (.name enumeration) (.bind (.name chosen) (below.arguments given inside).last)
  | construct name fields =>
    obtain ⟨-, inside⟩ := parts_within fits
    exact .bind (.name name) (below.fields fields inside).last
  | array elements => exact (below.exprs elements (content_within fits)).map
  | paren inner => exact (below.spanned inner (content_within fits)).map

theorem succ_type (type : Ty) (fits : type.encode.depth ≤ depth + 1) :
    Restores (Ty.decodeWithin (depth + 1) type.encode) type type.outlines := by
  cases type with
  | primitive base => exact (Restores.plain base.decode_label).map
  | unit | named => exact .plain rfl
  | reference target => exact (below.type target (content_within fits)).map
  | mutableReference target => exact (below.type target (content_within fits)).map
  | array element length =>
    have inside : element.encode.depth < (array [element.encode, nat length.toNat]).depth :=
      Value.depth_lt_of_mem_items List.mem_cons_self
    have content : (array [element.encode, nat length.toNat]).depth ≤ depth := content_within fits
    have within := Nat.le_of_lt (Nat.lt_of_lt_of_le inside content)
    have number : Restores (uint64? (nat length.toNat)) length [] := .plain (uint64?_toNat length)
    have parts : Restores (Ty.decodeWithin (depth + 1) (Ty.array element length).encode)
        (.array element length) (element.outlines ++ []) :=
      (below.type element within).bind number.last
    exact parts.ofEq (List.append_nil _)
  | refined base constraints =>
    obtain ⟨-, inside⟩ := parts_within fits
    exact .bind (.plain base.decode_label) (below.exprs constraints inside).last

theorem succ : Restoring (depth + 1) where
  expr := below.succ_expr
  type := below.succ_type
  arm
    | .mk pattern body, fits => by
      obtain ⟨-, inside⟩ := fields_within fits
      have first : Restores (Spanned.decode Pattern.decode (pattern.encode Pattern.encode)) pattern
          [ofPattern pattern] := by
        rw [ofPattern_eq]
        exact .spanned _ pattern.node.restores
      exact first.bind (below.spanned body inside).last
  field
    | .mk name value, fits => by
      have inside : (encodeSpanned value).depth <
          (array [encodeName name, encodeSpanned value]).depth :=
        Value.depth_lt_of_mem_items (.tail _ (.head _))
      have within := Nat.le_of_lt_succ (Nat.lt_of_lt_of_le inside fits)
      exact .bind (.name name) (below.spanned value within).last

end Restoring

end Depth

/-- All parts of expressions and types are restored, however deep their data is. -/
theorem restoring (depth : Nat) : Restoring depth := by
  induction depth with
  | zero => exact .zero
  | succ depth below => exact below.succ

theorem Expr.restores (expr : Expr) : Restores (Expr.decode expr.encode) expr expr.outlines :=
  (restoring _).expr expr (Nat.le_refl _)

theorem Ty.restores (type : Ty) : Restores (Ty.decode type.encode) type type.outlines :=
  (restoring _).type type (Nat.le_refl _)

theorem MatchArm.restores (arm : MatchArm) :
    Restores (MatchArm.decode arm.encode) arm arm.outlines :=
  (restoring _).arm arm (Nat.le_refl _)

theorem Restores.expr (expr : Spanned Expr) :
    Restores (decodeExpr (encodeSpanned expr)) expr [ofExpr expr] := by
  rw [encodeSpanned_eq]
  exact .spanned _ expr.node.restores

theorem Restores.type (type : Spanned Ty) :
    Restores (decodeType (type.encode Ty.encode)) type [ofType type] :=
  .spanned _ type.node.restores

/-! ### Definitions -/

theorem Condition.restores (condition : Condition) :
    Restores (Condition.decode condition.encode) condition condition.outlines := by
  have label : Restores (optional? decodeName (some (Value.optional encodeName condition.label)))
      condition.label (condition.label.toList.map ofName) :=
    .optionalNode (fun _ => rfl) fun name _ => .name name
  exact label.bind (Restores.expr condition.condition).last

theorem Restores.clause (clause : Option (Spanned Expr)) :
    Restores (optional? decodeExpr (some (Value.optional encodeSpanned clause))) clause
      (clause.toList.map ofExpr) :=
  .optionalNode (fun ⟨_, _⟩ => rfl) fun expr _ => .expr expr

theorem Contract.restores (contract : Contract) :
    Restores (Contract.decode contract.encode) contract contract.outlines := by
  cases contract with
  | conditions listed => exact (Restores.list fun condition _ => condition.restores).map
  | clauses pre post =>
    have both : Restores (Contract.decode (Contract.clauses pre post).encode) (.clauses pre post)
        (pre.toList.map ofExpr ++ post.toList.map ofExpr) :=
      (Restores.clause pre).bind (Restores.clause post).last
    exact both.ofEq List.map_append.symm

/-- A definition, or an attribute, whose span is written behind its parts. -/
theorem Restores.enclosed {α : Type} {decoded : Option α} {tree : α} {span : Span}
    {kind : NodeKind} {outlines parts : List Outline} (restores : Restores decoded tree parts)
    (same : Addressable parts ↔ Addressable outlines ∧ Addressable [node span .plain []]) :
    Restores decoded tree [node span kind outlines] := by
  refine restores.congr (same.trans ?_)
  simp only [addressable_node, addressable_nil, and_true]
  exact and_comm

theorem Attribute.restores (mark : Attribute) :
    Restores (Attribute.decode mark.encode) mark [ofAttribute mark] := by
  have given : Restores (optional? (list? decodeExpr)
      (some (Value.optional (Value.list encodeSpanned) mark.arguments))) mark.arguments
      ((mark.arguments.getD []).map ofExpr) :=
    .optionalNodes fun _ _ expr _ => .expr expr
  have parts : Restores (Attribute.decode mark.encode) mark
      ([ofName mark.name] ++ ((mark.arguments.getD []).map ofExpr ++ [node mark.span .plain []])) :=
    (Restores.name mark.name).bind (given.bind (Restores.span mark.span).last)
  exact parts.enclosed (by simp [ofName, and_assoc])

/-- The attributes of a definition. -/
theorem Restores.attributes (marks : List Attribute) :
    Restores (list? Attribute.decode (Value.list Attribute.encode marks)) marks
      (marks.map ofAttribute) :=
  .nodes fun mark _ => mark.restores

theorem TypedName.restores (typed : TypedName) :
    Restores (TypedName.decode typed.encode) typed typed.outlines :=
  (Restores.name typed.name).bind (Restores.type typed.type).last

theorem Variant.restores (variant : Variant) :
    Restores (Variant.decode variant.encode) variant variant.outlines := by
  have parts : Restores (optional? (list? decodeType)
      (some (Value.optional (Value.list (Spanned.encode Ty.encode)) variant.parts))) variant.parts
      ((variant.parts.getD []).map ofType) :=
    .optionalNodes fun _ _ type _ => .type type
  exact (Restores.name variant.name).bind parts.last

theorem UseItem.restores (item : UseItem) :
    Restores (UseItem.decode item.encode) item
      [node item.span .plain (Item.use item).outlines] := by
  have path : Restores (list? decodeName (Value.list encodeName item.path)) item.path
      (item.path.map ofName) :=
    .nodes fun name _ => .name name
  have parts : Restores (UseItem.decode item.encode) item
      (item.path.map ofName ++ [node item.span .plain []]) :=
    path.bind (Restores.span item.span).last
  exact parts.enclosed addressable_append

theorem StructItem.restores (item : StructItem) :
    Restores (StructItem.decode item.encode) item
      [node item.span .plain (Item.struct item).outlines] := by
  have fields : Restores (list? TypedName.decode (Value.list TypedName.encode item.fields))
      item.fields (item.fields.flatMap TypedName.outlines) :=
    .list fun typed _ => typed.restores
  have parts : Restores (StructItem.decode item.encode) item
      (item.attributes.map ofAttribute ++ ([] ++ ([ofName item.name] ++
        (item.fields.flatMap TypedName.outlines ++ [node item.span .plain []])))) :=
    (Restores.attributes item.attributes).bind (.bind (.plain item.visibility.decode_label)
      (.bind (.name item.name) (fields.bind (Restores.span item.span).last)))
  exact parts.enclosed (by simp [Item.outlines, ofName, and_assoc])

theorem EnumItem.restores (item : EnumItem) :
    Restores (EnumItem.decode item.encode) item
      [node item.span .plain (Item.enum item).outlines] := by
  have variants : Restores (list? Variant.decode (Value.list Variant.encode item.variants))
      item.variants (item.variants.flatMap Variant.outlines) :=
    .list fun variant _ => variant.restores
  have parts : Restores (EnumItem.decode item.encode) item
      (item.attributes.map ofAttribute ++ ([] ++ ([ofName item.name] ++
        (item.variants.flatMap Variant.outlines ++ [node item.span .plain []])))) :=
    (Restores.attributes item.attributes).bind (.bind (.plain item.visibility.decode_label)
      (.bind (.name item.name) (variants.bind (Restores.span item.span).last)))
  exact parts.enclosed (by simp [Item.outlines, ofName, and_assoc])

theorem FunctionItem.restores (item : FunctionItem) :
    Restores (FunctionItem.decode item.encode) item
      [node item.span .plain (Item.function item).outlines] := by
  have parameters : Restores
      (list? TypedName.decode (Value.list TypedName.encode item.parameters)) item.parameters
      (item.parameters.flatMap TypedName.outlines) :=
    .list fun typed _ => typed.restores
  have resultName : Restores
      (optional? decodeName (some (Value.optional encodeName item.resultName))) item.resultName
      (item.resultName.toList.map ofName) :=
    .optionalNode (fun _ => rfl) fun name _ => .name name
  have contract : Restores
      (optional? Contract.decode (some (Value.optional Contract.encode item.contract)))
      item.contract (item.contract.toList.flatMap Contract.outlines) :=
    .optional (fun contract => by cases contract <;> rfl) fun contract _ => contract.restores
  have parts : Restores (FunctionItem.decode item.encode) item
      (item.attributes.map ofAttribute ++ ([] ++ ([ofName item.name] ++
        (item.parameters.flatMap TypedName.outlines ++ (item.resultName.toList.map ofName ++
          ([ofType item.resultType] ++ (item.contract.toList.flatMap Contract.outlines ++
            ([ofExpr item.body] ++ [node item.span .plain []])))))))) :=
    (Restores.attributes item.attributes).bind (.bind (.plain item.visibility.decode_label)
      (.bind (.name item.name) (parameters.bind (resultName.bind (.bind (.type item.resultType)
        (contract.bind (.bind (.expr item.body) (Restores.span item.span).last)))))))
  exact parts.enclosed (by simp [Item.outlines, ofName, ofType, ofExpr, and_assoc])

theorem Item.restores (item : Item) :
    Restores (Item.decode item.encode) item [node item.span .plain item.outlines] := by
  cases item with
  | use item => exact item.restores.map
  | struct item => exact item.restores.map
  | enum item => exact item.restores.map
  | function item => exact item.restores.map

theorem Program.restores (program : Program) :
    Restores (Program.decode program.encode) program program.outlines :=
  (Restores.nodes fun item _ => item.restores).map

/-! ### Trees and their data -/

/-- Whether every tree whose offsets are words of 64 bits is decoded from its data, no other tree
is, and no two such trees have the same data. -/
structure Lossless {α : Type} (encode : α → Value) (decode : Value → Option α)
    (outlines : α → List Outline) : Prop where
  decode_encode : ∀ tree,
    decode (encode tree) = if Addressable (outlines tree) then some tree else none
  injective : ∀ first second, Addressable (outlines first) → Addressable (outlines second) →
    encode first = encode second → first = second

theorem Lossless.of_restores {α : Type} {encode : α → Value} {decode : Value → Option α}
    {outlines : α → List Outline}
    (restores : ∀ tree, Restores (decode (encode tree)) tree (outlines tree)) :
    Lossless encode decode outlines where
  decode_encode := restores
  injective first second wide wide' same := by
    have decoded : decode (encode first) = some first := (restores first).trans (if_pos wide)
    have decoded' : decode (encode second) = some second := (restores second).trans (if_pos wide')
    rw [same, decoded'] at decoded
    exact (Option.some.inj decoded).symm

/-- **Serialized data keeps trees.** Programs, definitions, attributes, alternatives, expressions,
types, patterns and contracts are decoded from the data they are written as, and two of them that
differ are written differently. -/
theorem trees_lossless :
    Lossless Program.encode Program.decode Program.outlines ∧
      Lossless Item.encode Item.decode (fun item => [node item.span .plain item.outlines]) ∧
      Lossless Attribute.encode Attribute.decode (fun mark => [ofAttribute mark]) ∧
      Lossless MatchArm.encode MatchArm.decode MatchArm.outlines ∧
      Lossless Expr.encode Expr.decode Expr.outlines ∧
      Lossless Ty.encode Ty.decode Ty.outlines ∧
      Lossless Pattern.encode Pattern.decode Pattern.outlines ∧
      Lossless Contract.encode Contract.decode Contract.outlines :=
  ⟨.of_restores Program.restores, .of_restores Item.restores, .of_restores Attribute.restores,
    .of_restores MatchArm.restores, .of_restores Expr.restores, .of_restores Ty.restores,
    .of_restores Pattern.restores, .of_restores Contract.restores⟩

end ContractSyntax
