/-
**What stands where in a printed tree.**

A tree is written with pieces of its own and with the expressions in it, each in a place that asks
it to bind with some power. `layout` tells these apart, so that an argument about printed trees has
to look at the ways of writing an expression once, and goes down the tree by its layout.

* `Expr.write_layout`: the layout, written out, is the printed expression;
* `replaced`, `write_replaced`: what stands in a layout is replaced, and when it is written as before;
* `Expr.part_mem_layout`: what stands in the layout of an expression;
* `Expr.induct`: induction on what stands in the layout.
-/

import ContractSyntax.Proofs.Printing.Tokens

namespace ContractSyntax

open Piece

/-! ### Layouts -/

/-- What is written for a tree: a piece of its own, or an expression in it. -/
inductive Written where
  | own (piece : Piece)
  /-- An expression, in parentheses if it binds less tightly than its place asks for. -/
  | part (power : Nat) (expr : Spanned Expr)

/-- The pieces of what is written. -/
def Written.pieces : Written → List Piece
  | own piece => [piece]
  | part power expr => parenthesized (expr.node.power < power) expr.node.pieces

/-- A layout, written out. -/
def write (layout : List Written) : List Piece := layout.flatMap Written.pieces

/-- Pieces of a tree's own. -/
def owned (pieces : List Piece) : List Written := pieces.map .own

/-- The layouts one after the other, with `separator` between them. -/
def spread (separator : List Piece) : List (List Written) → List Written
  | [] => []
  | [last] => last
  | first :: rest => first ++ owned separator ++ spread separator rest

/-- The layouts with commas between them. -/
def listed (layouts : List (List Written)) : List Written := spread [sign .comma, space] layouts

/-- The layouts in parentheses. -/
def listedInParens (layouts : List (List Written)) : List Written :=
  owned [sign .leftParen] ++ listed layouts ++ owned [sign .rightParen]

/-- The layouts in braces. -/
def listedInBraces : List (List Written) → List Written
  | [] => owned [sign .leftBrace, sign .rightBrace]
  | layouts => owned [sign .leftBrace, space] ++ listed layouts ++ owned [space, sign .rightBrace]

/-- The layouts in braces, with a space between them if there are none. -/
def listedInWideBraces : List (List Written) → List Written
  | [] => owned [sign .leftBrace, space, sign .rightBrace]
  | layouts => listedInBraces layouts

/-- Expressions that may bind as they like, each for itself. -/
def parts (exprs : List (Spanned Expr)) : List (List Written) :=
  exprs.map fun expr => [.part 0 expr]

/-- What is written for a type. -/
def Ty.layout : Ty → List Written
  | .primitive base => owned [word base.word]
  | .unit => owned [sign .leftParen, sign .rightParen]
  | .reference target => owned [sign .ampersand] ++ target.layout
  | .mutableReference target => owned [sign .ampersand, word .mut_, space] ++ target.layout
  | .array element length =>
    owned [sign .leftBracket] ++ element.layout ++
      owned ([sign .semicolon, space] ++ Piece.int length.toNat ++ [sign .rightBracket])
  | .refined base constraints => owned [word base.word] ++ listedInBraces (parts constraints)
  | .named type => owned [ident type]

/-- What is written for a stated type. -/
def statedLayout : Option (Spanned Ty) → List Written
  | none => []
  | some type => owned [sign .colon, space] ++ type.node.layout

/-- What is written for an alternative of a `match`. -/
def MatchArm.layout : MatchArm → List Written
  | .mk pattern body =>
    owned (pattern.node.pieces ++ [space, sign .fatArrow, space]) ++ [.part 0 body]

/-- What is written for a field of a new structure. -/
def FieldValue.layout : FieldValue → List Written
  | .mk field value => owned [ident field.node, sign .colon, space] ++ [.part 0 value]

/-- What is written for the statements of a block. -/
def statementLayout (statements : List (Spanned Expr)) : List Written :=
  statements.flatMap fun statement =>
    owned [space] ++ [.part 0 statement] ++ owned [sign .semicolon]

/-- What is written for an expression. -/
def Expr.layout : Expr → List Written
  | .int value => owned (Piece.int value.toInt)
  | .float value => owned (Piece.float value)
  | .string content => owned [token (.string content)]
  | .bool value => owned [Piece.bool value]
  | .unit => owned [sign .leftParen, sign .rightParen]
  | .var bound => owned [ident bound]
  | .ret => owned [word .ret]
  | .it => owned [word .it]
  | .binary left operator right =>
    [.part operator.power left] ++ owned [space, operator.piece, space] ++
      [.part (operator.power + 1) right]
  | .unary operator operand => owned operator.pieces ++ [.part unaryPower operand]
  | .conditional condition yes no =>
    owned [word .if_, space] ++ [.part 0 condition] ++ owned [space, word .then_, space] ++
      [.part 0 yes] ++ owned [space, word .else_, space] ++ [.part 0 no]
  | .binding isMutable bound type value body =>
    owned ([word .let_, space] ++ (if isMutable then [word .mut_, space] else []) ++
      [ident bound.node]) ++ statedLayout type ++ owned [space, sign .equal, space] ++
      [.part 0 value] ++ owned [sign .semicolon, space] ++ [.part 0 body]
  | .matching subject arms =>
    owned [word .match_, space] ++ [.part 0 subject] ++ owned [space] ++
      listedInWideBraces (arms.map MatchArm.layout)
  | .whileLoop condition body =>
    owned [word .while_, space] ++ [.part 0 condition] ++ owned [space] ++
      listedInBraces [[.part 0 body]]
  | .forLoop bound range body =>
    owned [word .for_, space, ident bound.node, space, word .in_, space] ++ [.part 0 range] ++
      owned [space] ++ listedInBraces [[.part 0 body]]
  | .block [] none => owned [sign .leftBrace, sign .rightBrace]
  | .block statements none =>
    owned [sign .leftBrace] ++ statementLayout statements ++ owned [space, sign .rightBrace]
  | .block statements (some last) =>
    owned [sign .leftBrace] ++ statementLayout statements ++ owned [space] ++ [.part 0 last] ++
      owned [space, sign .rightBrace]
  | .assign bound value => owned [ident bound.node, space, sign .equal, space] ++ [.part 0 value]
  | .methodCall receiver method given =>
    [.part operandPower receiver] ++ owned [sign .dot, ident method.node] ++
      listedInParens (parts given)
  | .field receiver name => [.part operandPower receiver] ++ owned [sign .dot, ident name.node]
  | .index receiver position =>
    [.part operandPower receiver] ++ owned [sign .leftBracket] ++ [.part 0 position] ++
      owned [sign .rightBracket]
  | .state receiver moment => [.part operandPower receiver] ++ owned [sign .dot, word moment.word]
  | .call function given => owned [ident function.node] ++ listedInParens (parts given)
  | .variant enumeration chosen none => owned (variantPieces enumeration.node chosen.node)
  | .variant enumeration chosen (some given) =>
    owned (variantPieces enumeration.node chosen.node) ++ listedInParens (parts given)
  | .construct struct fields =>
    owned [word .new, space, ident struct.node, space] ++
      listedInBraces (fields.map FieldValue.layout)
  | .array elements =>
    owned [sign .leftBracket] ++ listed (parts elements) ++ owned [sign .rightBracket]
  | .paren inner => owned [sign .leftParen] ++ [.part 0 inner] ++ owned [sign .rightParen]

/-! ### Writing -/

@[simp] theorem write_nil : write [] = [] := rfl

@[simp] theorem write_append (first second : List Written) :
    write (first ++ second) = write first ++ write second := List.flatMap_append

@[simp] theorem write_owned (pieces : List Piece) : write (owned pieces) = pieces := by
  simp [write, owned, List.flatMap_map, Written.pieces]

theorem write_cons (written : Written) (rest : List Written) :
    write (written :: rest) = written.pieces ++ write rest := rfl

theorem write_part (power : Nat) (expr : Spanned Expr) (rest : List Written) :
    write (.part power expr :: rest) =
      parenthesized (expr.node.power < power) expr.node.pieces ++ write rest := rfl

@[simp] theorem write_free (expr : Spanned Expr) (rest : List Written) :
    write (.part 0 expr :: rest) = expr.node.pieces ++ write rest := rfl

@[simp] theorem write_spread (separator : List Piece) (layouts : List (List Written)) :
    write (spread separator layouts) = separated separator (layouts.map write) := by
  induction layouts with
  | nil => rfl
  | cons first rest continued =>
    cases rest with
    | nil => rfl
    | cons second others =>
      rw [spread, write_append, write_append, write_owned, continued]
      · rfl
      · exact List.cons_ne_nil _ _

@[simp] theorem write_listed (layouts : List (List Written)) :
    write (listed layouts) = commas (layouts.map write) := write_spread _ _

@[simp] theorem write_listedInParens (layouts : List (List Written)) :
    write (listedInParens layouts) = parens (layouts.map write) := by
  simp [listedInParens, parens]

@[simp] theorem write_listedInBraces (layouts : List (List Written)) :
    write (listedInBraces layouts) = braces (layouts.map write) := by
  cases layouts <;> simp [listedInBraces, braces]

@[simp] theorem write_listedInWideBraces (layouts : List (List Written)) :
    write (listedInWideBraces layouts) = wideBraces (layouts.map write) := by
  cases layouts with
  | nil => rfl
  | cons layout layouts => exact write_listedInBraces (layout :: layouts)

@[simp] theorem write_parts (exprs : List (Spanned Expr)) :
    (parts exprs).map write = exprs.map fun expr => expr.node.pieces := by
  simp [parts, Function.comp_def]

theorem Ty.write_layout : (type : Ty) → write type.layout = type.pieces
  | .primitive _ | .unit | .named _ => write_owned _
  | .reference target => by simp [Ty.layout, Ty.pieces, target.write_layout]
  | .mutableReference target => by simp [Ty.layout, Ty.pieces, target.write_layout]
  | .array element _ => by simp [Ty.layout, Ty.pieces, element.write_layout]
  | .refined base constraints => by simp [Ty.layout, Ty.pieces_refined]

@[simp] theorem write_statedLayout (type : Option (Spanned Ty)) :
    write (statedLayout type) = statedPieces type := by
  cases type with
  | none => rfl
  | some type => simp [statedLayout, statedPieces, Ty.write_layout]

@[simp] theorem MatchArm.write_layout (arm : MatchArm) : write arm.layout = arm.pieces := by
  obtain ⟨pattern, body⟩ := arm
  simp [MatchArm.layout, MatchArm.pieces]

@[simp] theorem FieldValue.write_layout (field : FieldValue) :
    write field.layout = field.pieces := by
  obtain ⟨field, value⟩ := field
  simp [FieldValue.layout, FieldValue.pieces]

@[simp] theorem write_statementLayout (statements : List (Spanned Expr)) :
    write (statementLayout statements) = statementPieces statements := by
  induction statements with
  | nil => rfl
  | cons statement others continued =>
    rw [statementPieces_cons, ← continued]
    simp [statementLayout]

/-- The layout of an expression, written out, is the printed expression. -/
theorem Expr.write_layout (expr : Expr) : write expr.layout = expr.pieces := by
  cases expr with
  | binary left operator right =>
    simp only [layout, pieces_binary, write_append, write_owned, write_part, write_nil,
      List.append_nil, Nat.lt_succ_iff]
  | unary operator operand =>
    simp only [layout, pieces_unary, write_append, write_owned, write_part, write_nil,
      List.append_nil]
  | conditional | whileLoop | forLoop | assign | paren => simp [layout, Expr.pieces]
  | binding => simp [layout, pieces_binding]
  | matching subject arms =>
    simp [layout, pieces_matching, Function.comp_def]
  | block statements last =>
    cases last with
    | none => cases statements <;> simp [layout, Expr.pieces]
    | some last => simp [layout, Expr.pieces]
  | methodCall receiver method given =>
    simp [layout, pieces_methodCall, write_part]
  | field | state => simp [layout, Expr.pieces, write_part]
  | index => simp [layout, Expr.pieces, write_part]
  | call => simp [layout, pieces_call]
  | variant enumeration variant given =>
    cases given with
    | none => simp [layout, Expr.pieces]
    | some given => simp [layout, pieces_variantOf]
  | construct struct fields => simp [layout, pieces_construct, Function.comp_def]
  | array => simp [layout, pieces_array]
  | _ => simp [layout, Expr.pieces]

/-! ### Replacing what stands in a layout -/

/-- What is written, with an expression replaced by one that depends on what its place demands. -/
def Written.replaced (change : Nat → Spanned Expr → Spanned Expr) : Written → Written
  | own piece => own piece
  | part power expr => part power (change power expr)

/-- The layout with each expression in it replaced. -/
def replaced (change : Nat → Spanned Expr → Spanned Expr) (layout : List Written) : List Written :=
  layout.map (Written.replaced change)

section Replaced

variable (change : Nat → Spanned Expr → Spanned Expr)

@[simp] theorem replaced_nil : replaced change [] = [] := rfl

@[simp] theorem replaced_append (first second : List Written) :
    replaced change (first ++ second) = replaced change first ++ replaced change second :=
  List.map_append

@[simp] theorem replaced_part (power : Nat) (expr : Spanned Expr) (rest : List Written) :
    replaced change (.part power expr :: rest) =
      .part power (change power expr) :: replaced change rest := rfl

@[simp] theorem replaced_owned (pieces : List Piece) :
    replaced change (owned pieces) = owned pieces := by
  simp [replaced, owned, Written.replaced, Function.comp_def]

@[simp] theorem replaced_spread (separator : List Piece) (layouts : List (List Written)) :
    replaced change (spread separator layouts) =
      spread separator (layouts.map (replaced change)) := by
  induction layouts with
  | nil => rfl
  | cons first rest continued =>
    cases rest with
    | nil => rfl
    | cons second others =>
      rw [spread, replaced_append, replaced_append, replaced_owned, continued]
      · rfl
      · exact List.cons_ne_nil _ _

@[simp] theorem replaced_listed (layouts : List (List Written)) :
    replaced change (listed layouts) = listed (layouts.map (replaced change)) :=
  replaced_spread change _ _

@[simp] theorem replaced_listedInParens (layouts : List (List Written)) :
    replaced change (listedInParens layouts) = listedInParens (layouts.map (replaced change)) := by
  simp [listedInParens]

@[simp] theorem replaced_listedInBraces (layouts : List (List Written)) :
    replaced change (listedInBraces layouts) = listedInBraces (layouts.map (replaced change)) := by
  cases layouts <;> simp [listedInBraces]

@[simp] theorem replaced_listedInWideBraces (layouts : List (List Written)) :
    replaced change (listedInWideBraces layouts) =
      listedInWideBraces (layouts.map (replaced change)) := by
  cases layouts with
  | nil => exact replaced_owned change _
  | cons layout layouts => exact replaced_listedInBraces change (layout :: layouts)

@[simp] theorem replaced_parts (exprs : List (Spanned Expr)) :
    (parts exprs).map (replaced change) = parts (exprs.map (change 0)) := by
  simp [parts, Function.comp_def]

@[simp] theorem replaced_statementLayout (statements : List (Spanned Expr)) :
    replaced change (statementLayout statements) =
      statementLayout (statements.map (change 0)) := by
  induction statements with
  | nil => rfl
  | cons statement others continued =>
    simp only [statementLayout, List.flatMap_cons, List.map_cons, replaced_append] at continued ⊢
    rw [continued]
    simp

theorem replaced_replaced (change' : Nat → Spanned Expr → Spanned Expr) (layout : List Written) :
    replaced change' (replaced change layout) =
      replaced (fun power expr => change' power (change power expr)) layout := by
  rw [replaced, replaced, List.map_map]
  refine List.map_congr_left fun written _ => ?_
  cases written <;> rfl

variable {change}

/-- A layout is written as before if each expression in it is. -/
theorem write_replaced {layout : List Written}
    (each : ∀ power expr, .part power expr ∈ layout →
      (Written.part power (change power expr)).pieces = (Written.part power expr).pieces) :
    write (replaced change layout) = write layout := by
  simp only [write, replaced, List.flatMap, List.map_map]
  refine congrArg List.flatten (List.map_congr_left fun written member => ?_)
  cases written with
  | own piece => rfl
  | part power expr => exact each power expr member

end Replaced

/-! ### What stands in a layout -/

/-- The conditions that refine a type or what is in it. -/
def Ty.constraints : Ty → List (Spanned Expr)
  | .primitive _ | .unit | .named _ => []
  | .reference target | .mutableReference target => target.constraints
  | .array element _ => element.constraints
  | .refined _ constraints => constraints

/-- The value of an alternative. -/
def MatchArm.body : MatchArm → Spanned Expr
  | .mk _ body => body

/-- The value of a field. -/
def FieldValue.value : FieldValue → Spanned Expr
  | .mk _ value => value

/-- The operands of an expression, with the power that each place demands. -/
def Expr.operands : Expr → List (Nat × Spanned Expr)
  | .binary left operator right => [(operator.power, left), (operator.power + 1, right)]
  | .unary _ operand => [(unaryPower, operand)]
  | .methodCall receiver _ _ | .field receiver _ | .index receiver _ | .state receiver _ =>
    [(operandPower, receiver)]
  | _ => []

/-- The expressions in an expression that may bind as they like. -/
def Expr.members : Expr → List (Spanned Expr)
  | .conditional condition yes no => [condition, yes, no]
  | .binding _ _ none value body => [value, body]
  | .binding _ _ (some type) value body => type.node.constraints ++ [value, body]
  | .matching subject arms => subject :: arms.map MatchArm.body
  | .whileLoop condition body => [condition, body]
  | .forLoop _ range body => [range, body]
  | .block statements last => statements ++ last.toList
  | .index _ position => [position]
  | .methodCall _ _ given | .call _ given | .variant _ _ (some given) | .array given => given
  | .construct _ fields => fields.map FieldValue.value
  | .assign _ inner | .paren inner => [inner]
  | _ => []

section Members

variable {power : Nat} {expr : Spanned Expr}

@[simp] theorem part_not_mem_owned (pieces : List Piece) : .part power expr ∉ owned pieces := by
  simp [owned]

@[simp] theorem part_mem_spread {separator : List Piece} {layouts : List (List Written)} :
    .part power expr ∈ spread separator layouts ↔
      ∃ layout ∈ layouts, .part power expr ∈ layout := by
  induction layouts with
  | nil => simp [spread]
  | cons first rest continued =>
    cases rest with
    | nil => simp [spread]
    | cons second others =>
      rw [spread, List.mem_append, List.mem_append, continued]
      · simp
      · exact List.cons_ne_nil _ _

@[simp] theorem part_mem_listed {layouts : List (List Written)} :
    .part power expr ∈ listed layouts ↔ ∃ layout ∈ layouts, .part power expr ∈ layout :=
  part_mem_spread

@[simp] theorem part_mem_listedInParens {layouts : List (List Written)} :
    .part power expr ∈ listedInParens layouts ↔
      ∃ layout ∈ layouts, .part power expr ∈ layout := by
  simp [listedInParens]

@[simp] theorem part_mem_listedInBraces {layouts : List (List Written)} :
    .part power expr ∈ listedInBraces layouts ↔
      ∃ layout ∈ layouts, .part power expr ∈ layout := by
  cases layouts <;> simp [listedInBraces]

@[simp] theorem part_mem_listedInWideBraces {layouts : List (List Written)} :
    .part power expr ∈ listedInWideBraces layouts ↔
      ∃ layout ∈ layouts, .part power expr ∈ layout := by
  cases layouts with
  | nil => simp [listedInWideBraces]
  | cons layout layouts => exact @part_mem_listedInBraces _ _ (layout :: layouts)

/-- What stands in the layouts of some values if one expression stands in each. -/
theorem part_mem_map {α : Type} {values : List α} {layout : α → List Written}
    {inside : α → Spanned Expr}
    (each : ∀ value, .part power expr ∈ layout value ↔ power = 0 ∧ expr = inside value) :
    (∃ written ∈ values.map layout, .part power expr ∈ written) ↔
      power = 0 ∧ expr ∈ values.map inside := by
  constructor
  · rintro ⟨_, laid, member⟩
    obtain ⟨value, among, rfl⟩ := List.mem_map.mp laid
    obtain ⟨free, same⟩ := (each value).mp member
    exact ⟨free, List.mem_map.mpr ⟨value, among, same.symm⟩⟩
  · rintro ⟨free, member⟩
    obtain ⟨value, among, same⟩ := List.mem_map.mp member
    exact ⟨_, List.mem_map_of_mem among, (each value).mpr ⟨free, same.symm⟩⟩

@[simp] theorem part_mem_parts {exprs : List (Spanned Expr)} :
    (∃ layout ∈ parts exprs, .part power expr ∈ layout) ↔ power = 0 ∧ expr ∈ exprs := by
  have each := @part_mem_map power expr _ exprs (fun expr => [.part 0 expr]) id fun _ => by simp
  rwa [List.map_id] at each

@[simp] theorem part_mem_statementLayout {statements : List (Spanned Expr)} :
    .part power expr ∈ statementLayout statements ↔ power = 0 ∧ expr ∈ statements := by
  constructor
  · intro member
    obtain ⟨statement, among, inside⟩ := List.mem_flatMap.mp member
    obtain ⟨rfl, rfl⟩ : power = 0 ∧ expr = statement := by simpa using inside
    exact ⟨rfl, among⟩
  · rintro ⟨rfl, member⟩
    exact List.mem_flatMap.mpr ⟨expr, member, by simp⟩

@[simp] theorem Ty.part_mem_layout {type : Ty} :
    .part power expr ∈ type.layout ↔ power = 0 ∧ expr ∈ type.constraints := by
  cases type with
  | primitive | unit | named => simp [layout, constraints]
  | reference target | mutableReference target => simp [layout, constraints, target.part_mem_layout]
  | array element => simp [layout, constraints, element.part_mem_layout]
  | refined => simp [layout, constraints]

@[simp] theorem MatchArm.part_mem_layout (arm : MatchArm) :
    .part power expr ∈ arm.layout ↔ power = 0 ∧ expr = arm.body := by
  obtain ⟨pattern, body⟩ := arm
  simp [layout, MatchArm.body]

@[simp] theorem FieldValue.part_mem_layout (field : FieldValue) :
    .part power expr ∈ field.layout ↔ power = 0 ∧ expr = field.value := by
  obtain ⟨name, value⟩ := field
  simp [layout, FieldValue.value]

/-- What stands in the layout of an expression are its operands and its members. -/
theorem Expr.part_mem_layout {whole : Expr} : .part power expr ∈ whole.layout ↔
    (power, expr) ∈ whole.operands ∨ power = 0 ∧ expr ∈ whole.members := by
  cases whole with
  | binding _ _ type =>
    cases type <;> simp [layout, operands, members, statedLayout, and_or_left]
  | block statements last =>
    cases last with
    | none => cases statements <;> simp [layout, operands, members]
    | some last => simp [layout, operands, members, and_or_left]
  | variant _ _ given => cases given <;> simp [layout, operands, members]
  | matching subject arms =>
    have values := @part_mem_map power expr _ arms _ _ MatchArm.part_mem_layout
    rw [layout, List.mem_append, part_mem_listedInWideBraces, values]
    simp [operands, members, and_or_left]
  | construct struct fields =>
    have values := @part_mem_map power expr _ fields _ _ FieldValue.part_mem_layout
    rw [layout, List.mem_append, part_mem_listedInBraces, values]
    simp [operands, members]
  | _ => simp [layout, operands, members, and_or_left]

/-- Nothing but an operand has a place that demands anything. -/
theorem Expr.mem_operands {whole : Expr} (member : .part power expr ∈ whole.layout) :
    power = 0 ∨ (power, expr) ∈ whole.operands :=
  (part_mem_layout.mp member).symm.imp_left And.left

/-! ### Sizes -/

theorem sizeOf_node_lt {α : Type} [SizeOf α] (place : Spanned α) :
    sizeOf place.node < sizeOf place := by
  obtain ⟨node, span⟩ := place
  simp only [Spanned.mk.sizeOf_spec]
  omega

theorem sizeOf_node_lt_of_mem {exprs : List (Spanned Expr)} (member : expr ∈ exprs) :
    sizeOf expr.node < sizeOf exprs :=
  Nat.lt_trans (sizeOf_node_lt expr) (List.sizeOf_lt_of_mem member)

theorem Ty.sizeOf_lt_of_mem_constraints {type : Ty} (member : expr ∈ type.constraints) :
    sizeOf expr.node < sizeOf type := by
  cases type with
  | primitive | unit | named => exact absurd member List.not_mem_nil
  | reference target | mutableReference target | array target =>
    have below : sizeOf expr.node < sizeOf target := sizeOf_lt_of_mem_constraints member
    grind
  | refined base constraints =>
    have below : sizeOf expr.node < sizeOf constraints := sizeOf_node_lt_of_mem member
    grind

theorem MatchArm.sizeOf_body_lt (arm : MatchArm) : sizeOf arm.body.node < sizeOf arm := by
  obtain ⟨pattern, body⟩ := arm
  have node := sizeOf_node_lt body
  simp only [MatchArm.body, mk.sizeOf_spec]
  omega

theorem FieldValue.sizeOf_value_lt (field : FieldValue) :
    sizeOf field.value.node < sizeOf field := by
  obtain ⟨name, value⟩ := field
  have node := sizeOf_node_lt value
  simp only [FieldValue.value, mk.sizeOf_spec]
  omega

theorem Expr.sizeOf_lt_of_mem_operands {whole : Expr} (member : (power, expr) ∈ whole.operands) :
    sizeOf expr.node < sizeOf whole := by
  have node := sizeOf_node_lt expr
  cases whole with
  | binary | unary | methodCall | field | index | state =>
    simp only [operands, List.mem_cons, Prod.mk.injEq, List.not_mem_nil, or_false] at member
    grind
  | _ => exact absurd member List.not_mem_nil

theorem Expr.sizeOf_lt_of_mem_members {whole : Expr} (member : expr ∈ whole.members) :
    sizeOf expr.node < sizeOf whole := by
  have node := sizeOf_node_lt expr
  cases whole with
  | conditional | whileLoop | forLoop | index | assign | paren =>
    simp only [members, List.mem_cons, List.not_mem_nil, or_false] at member
    grind
  | binding isMutable name type value body =>
    cases type with
    | none =>
      simp only [members, List.mem_cons, List.not_mem_nil, or_false] at member
      grind
    | some type =>
      simp only [members, List.mem_append, List.mem_cons, List.not_mem_nil, or_false] at member
      rcases member with inside | rfl | rfl
      · have below := Ty.sizeOf_lt_of_mem_constraints inside
        have stated := sizeOf_node_lt type
        grind
      · grind
      · grind
  | matching subject arms =>
    rcases List.mem_cons.mp member with rfl | inside
    · grind
    · obtain ⟨arm, among, rfl⟩ := List.mem_map.mp inside
      have below := arm.sizeOf_body_lt
      have := List.sizeOf_lt_of_mem among
      grind
  | block statements last =>
    rcases List.mem_append.mp member with inside | inside
    · have below := sizeOf_node_lt_of_mem inside
      grind
    · obtain rfl := Option.mem_toList.mp inside
      grind
  | methodCall _ _ given | call _ given | array given =>
    have below : sizeOf expr.node < sizeOf given := sizeOf_node_lt_of_mem member
    grind
  | variant enumeration chosen given =>
    cases given with
    | none => exact absurd member List.not_mem_nil
    | some given =>
      have below : sizeOf expr.node < sizeOf given := sizeOf_node_lt_of_mem member
      grind
  | construct struct fields =>
    obtain ⟨field, among, rfl⟩ := List.mem_map.mp member
    have below := field.sizeOf_value_lt
    have := List.sizeOf_lt_of_mem among
    grind
  | _ => exact absurd member List.not_mem_nil

/-- What stands in the layout of an expression is smaller than the expression. -/
theorem Expr.sizeOf_lt_of_mem_layout {whole : Expr} (member : .part power expr ∈ whole.layout) :
    sizeOf expr.node < sizeOf whole :=
  (part_mem_layout.mp member).elim sizeOf_lt_of_mem_operands fun inner =>
    sizeOf_lt_of_mem_members inner.2

end Members

/-- Induction on what stands in the layout of an expression. -/
theorem Expr.induct {motive : Expr → Prop}
    (step : ∀ whole, (∀ power expr, .part power expr ∈ whole.layout → motive expr.node) →
      motive whole) (whole : Expr) : motive whole :=
  step whole fun _ expr member =>
    have := sizeOf_lt_of_mem_layout member
    induct step expr.node
termination_by sizeOf whole

end ContractSyntax
