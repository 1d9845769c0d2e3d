/-
**Trees from plain data.**

Data that some tree is written as gives that tree. Beyond that, fields may come in any order and
beside others, an absent part may be left out, and a record that is no variant may be the list of
its fields.
-/

import ContractSyntax.Serial.Encode

namespace ContractSyntax

open Value

/-! ### Names of variants -/

/-- The first of some things under a label. -/
def findLabelled {α : Type} (label : α → String) (all : List α) (text : String) : Option α :=
  all.find? fun thing => label thing == text

/-- The built-in type that a value names. -/
def Primitive.decode (value : Value) : Option Primitive :=
  value.unit?.bind (findLabelled label [i32, i64, f64, bool, string])

/-- The infix operator that a value names. -/
def BinaryOperator.decode (value : Value) : Option BinaryOperator :=
  value.unit?.bind <| findLabelled label
    [or, and, equal, notEqual, less, greater, lessEqual, greaterEqual, range, rangeExclusive,
      rangeInclusive, add, subtract, multiply, divide, remainder]

/-- The operator before an operand that a value names. -/
def UnaryOperator.decode (value : Value) : Option UnaryOperator :=
  value.unit?.bind (findLabelled label [negate, not, reference, mutableReference, dereference])

/-- The moment that a value names. -/
def Moment.decode (value : Value) : Option Moment :=
  value.unit?.bind (findLabelled label [pre, post])

/-- The visibility that a value names. -/
def Visibility.decode (value : Value) : Option Visibility :=
  value.unit?.bind (findLabelled label [hidden, shown])

/-! ### Places -/

/-- An offset. -/
def decodeOffset (value : Value) : Option Nat := value.uint64?.map UInt64.toNat

/-- A span. -/
def Span.decode (value : Value) : Option Span :=
  match value.record? ["start", "end"] with
  | some [some start, some stop] => return ⟨← decodeOffset start, ← decodeOffset stop⟩
  | _ => none

/-- A value with its span. -/
def Spanned.decode {α : Type} (decode : Value → Option α) (value : Value) : Option (Spanned α) :=
  match value.record? ["node", "span"] with
  | some [some node, some span] => return ⟨← decode node, ← Span.decode span⟩
  | _ => none

/-- A name with its span. -/
def decodeName (value : Value) : Option Name := Spanned.decode string? value

/-! ### Patterns -/

/-- A literal in a pattern. -/
def PatternLiteral.decode (value : Value) : Option PatternLiteral :=
  match value.variant? with
  | some ("Int", some content) => content.int64?.map .int
  | some ("Float", some content) => content.float?.map .float
  | some ("String", some content) => content.string?.map .string
  | some ("Bool", some content) => content.bool?.map .bool
  | _ => none

/-- A pattern. -/
def Pattern.decode (value : Value) : Option Pattern :=
  match value.variant? with
  | some ("Wildcard", none) | some ("Wildcard", some null) => some .wildcard
  | some ("Var", some content) => content.string?.map .bind
  | some ("Literal", some content) => (PatternLiteral.decode content).map .literal
  | some ("EnumVariant", some content) =>
    match content.fields? ["enum_name", "variant", "bindings"] with
    | some [some enumeration, some chosen, bindings] =>
      return .variant (← decodeName enumeration) (← decodeName chosen)
        (← optional? (list? decodeName) bindings)
    | _ => none
  | _ => none

/-! ### Expressions and types -/

mutual

/-- An expression in data of a given depth at most. -/
def Expr.decodeWithin : Nat → Value → Option Expr
  | 0, _ => none
  | depth + 1, value =>
    let expr := Spanned.decode (Expr.decodeWithin depth)
    let exprs := list? expr
    match value.variant? with
    | some ("Unit", none) | some ("Unit", some null) => some .unit
    | some ("Ret", none) | some ("Ret", some null) => some .ret
    | some ("It", none) | some ("It", some null) => some .it
    | some ("IntLit", some content) => content.int64?.map .int
    | some ("FloatLit", some content) => content.float?.map .float
    | some ("StringLit", some content) => content.string?.map .string
    | some ("BoolLit", some content) => content.bool?.map .bool
    | some ("Var", some content) => content.string?.map .var
    | some ("ArrayLit", some content) => (exprs content).map .array
    | some ("Paren", some content) => (expr content).map .paren
    | some ("Binary", some content) =>
      match content.fields? ["left", "op", "right"] with
      | some [some left, some operator, some right] =>
        return .binary (← expr left) (← BinaryOperator.decode operator) (← expr right)
      | _ => none
    | some ("Unary", some content) =>
      match content.fields? ["op", "expr"] with
      | some [some operator, some operand] =>
        return .unary (← UnaryOperator.decode operator) (← expr operand)
      | _ => none
    | some ("If", some content) =>
      match content.fields? ["cond", "then_branch", "else_branch"] with
      | some [some condition, some yes, some no] =>
        return .conditional (← expr condition) (← expr yes) (← expr no)
      | _ => none
    | some ("Let", some content) =>
      match content.fields? ["mutable", "name", "ty", "value", "body"] with
      | some [some isMutable, some name, type, some value, some body] =>
        return .binding (← isMutable.bool?) (← decodeName name)
          (← optional? (Spanned.decode (Ty.decodeWithin depth)) type) (← expr value) (← expr body)
      | _ => none
    | some ("Match", some content) =>
      match content.fields? ["expr", "arms"] with
      | some [some subject, some arms] =>
        return .matching (← expr subject) (← list? (MatchArm.decodeWithin depth) arms)
      | _ => none
    | some ("While", some content) =>
      match content.fields? ["cond", "body"] with
      | some [some condition, some body] => return .whileLoop (← expr condition) (← expr body)
      | _ => none
    | some ("For", some content) =>
      match content.fields? ["var", "iter", "body"] with
      | some [some name, some range, some body] =>
        return .forLoop (← decodeName name) (← expr range) (← expr body)
      | _ => none
    | some ("Block", some content) =>
      match content.fields? ["stmts", "tail"] with
      | some [some statements, last] =>
        return .block (← exprs statements) (← optional? expr last)
      | _ => none
    | some ("Assign", some content) =>
      match content.fields? ["name", "value"] with
      | some [some name, some value] => return .assign (← decodeName name) (← expr value)
      | _ => none
    | some ("MethodCall", some content) =>
      match content.fields? ["receiver", "method", "args"] with
      | some [some receiver, some method, some given] =>
        return .methodCall (← expr receiver) (← decodeName method) (← exprs given)
      | _ => none
    | some ("FieldAccess", some content) =>
      match content.fields? ["expr", "field"] with
      | some [some receiver, some field] => return .field (← expr receiver) (← decodeName field)
      | _ => none
    | some ("Index", some content) =>
      match content.fields? ["expr", "index"] with
      | some [some receiver, some position] => return .index (← expr receiver) (← expr position)
      | _ => none
    | some ("StateRef", some content) =>
      match content.fields? ["expr", "state"] with
      | some [some receiver, some moment] =>
        return .state (← expr receiver) (← Moment.decode moment)
      | _ => none
    | some ("Call", some content) =>
      match content.fields? ["func", "args"] with
      | some [some function, some given] => return .call (← decodeName function) (← exprs given)
      | _ => none
    | some ("EnumVariant", some content) =>
      match content.fields? ["enum_name", "variant", "args"] with
      | some [some enumeration, some chosen, given] =>
        return .variant (← decodeName enumeration) (← decodeName chosen) (← optional? exprs given)
      | _ => none
    | some ("StructInit", some content) =>
      match content.fields? ["name", "fields"] with
      | some [some name, some fields] =>
        return .construct (← decodeName name) (← list? (FieldValue.decodeWithin depth) fields)
      | _ => none
    | _ => none

/-- An alternative of a `match`. -/
def MatchArm.decodeWithin (depth : Nat) (value : Value) : Option MatchArm :=
  match depth with
  | 0 => none
  | depth + 1 =>
    match value.record? ["pattern", "body"] with
    | some [some pattern, some body] =>
      return .mk (← Spanned.decode Pattern.decode pattern)
        (← Spanned.decode (Expr.decodeWithin depth) body)
    | _ => none

/-- A field of a new structure. -/
def FieldValue.decodeWithin (depth : Nat) (value : Value) : Option FieldValue :=
  match depth with
  | 0 => none
  | depth + 1 =>
    match value.tuple? 2 with
    | some [name, value] =>
      return .mk (← decodeName name) (← Spanned.decode (Expr.decodeWithin depth) value)
    | _ => none

/-- A type in data of a given depth at most. -/
def Ty.decodeWithin : Nat → Value → Option Ty
  | 0, _ => none
  | depth + 1, value =>
    match value.variant? with
    | some ("Unit", none) | some ("Unit", some null) => some .unit
    | some ("Primitive", some content) => (Primitive.decode content).map .primitive
    | some ("Ref", some content) => (Ty.decodeWithin depth content).map .reference
    | some ("RefMut", some content) => (Ty.decodeWithin depth content).map .mutableReference
    | some ("Named", some content) => content.string?.map .named
    | some ("Array", some content) =>
      match content.tuple? 2 with
      | some [element, length] => return .array (← Ty.decodeWithin depth element) (← length.uint64?)
      | _ => none
    | some ("Refined", some content) =>
      match content.fields? ["base", "constraints"] with
      | some [some base, some constraints] =>
        return .refined (← Primitive.decode base)
          (← list? (Spanned.decode (Expr.decodeWithin depth)) constraints)
      | _ => none
    | _ => none

end

/-- An expression. -/
def Expr.decode (value : Value) : Option Expr := Expr.decodeWithin value.depth value

/-- A type. -/
def Ty.decode (value : Value) : Option Ty := Ty.decodeWithin value.depth value

/-- An alternative of a `match`. -/
def MatchArm.decode (value : Value) : Option MatchArm := MatchArm.decodeWithin value.depth value

/-! ### Definitions -/

/-- An expression with its span. -/
def decodeExpr (value : Value) : Option (Spanned Expr) := Spanned.decode Expr.decode value

/-- A type with its span. -/
def decodeType (value : Value) : Option (Spanned Ty) := Spanned.decode Ty.decode value

/-- A condition of a contract. -/
def Condition.decode (value : Value) : Option Condition :=
  match value.record? ["name", "condition"] with
  | some [label, some condition] =>
    return ⟨← optional? decodeName label, ← decodeExpr condition⟩
  | _ => none

/-- A contract. -/
def Contract.decode (value : Value) : Option Contract :=
  match value.variant? with
  | some ("Where", some content) => (list? Condition.decode content).map .conditions
  | some ("Legacy", some content) =>
    match content.fields? ["pre", "post"] with
    | some [pre, post] => return .clauses (← optional? decodeExpr pre) (← optional? decodeExpr post)
    | _ => none
  | _ => none

/-- An attribute. -/
def Attribute.decode (value : Value) : Option Attribute :=
  match value.record? ["name", "args", "span"] with
  | some [some name, given, some span] =>
    return ⟨← decodeName name, ← optional? (list? decodeExpr) given, ← Span.decode span⟩
  | _ => none

/-- The path of a module. -/
def UseItem.decode (value : Value) : Option UseItem :=
  match value.record? ["path", "span"] with
  | some [some path, some span] => return ⟨← list? decodeName path, ← Span.decode span⟩
  | _ => none

/-- A field or a parameter. -/
def TypedName.decode (value : Value) : Option TypedName :=
  match value.record? ["name", "ty"] with
  | some [some name, some type] => return ⟨← decodeName name, ← decodeType type⟩
  | _ => none

/-- A structure. -/
def StructItem.decode (value : Value) : Option StructItem :=
  match value.record? ["attributes", "visibility", "name", "fields", "span"] with
  | some [some attributes, some visibility, some name, some fields, some span] =>
    return ⟨← list? Attribute.decode attributes, ← Visibility.decode visibility,
      ← decodeName name, ← list? TypedName.decode fields, ← Span.decode span⟩
  | _ => none

/-- A variant of an enumeration. -/
def Variant.decode (value : Value) : Option Variant :=
  match value.record? ["name", "fields"] with
  | some [some name, parts] =>
    return ⟨← decodeName name, ← optional? (list? decodeType) parts⟩
  | _ => none

/-- An enumeration. -/
def EnumItem.decode (value : Value) : Option EnumItem :=
  match value.record? ["attributes", "visibility", "name", "variants", "span"] with
  | some [some attributes, some visibility, some name, some variants, some span] =>
    return ⟨← list? Attribute.decode attributes, ← Visibility.decode visibility,
      ← decodeName name, ← list? Variant.decode variants, ← Span.decode span⟩
  | _ => none

/-- A function. -/
def FunctionItem.decode (value : Value) : Option FunctionItem :=
  match value.record? ["attributes", "visibility", "name", "params", "ret_name", "ret_ty",
      "contract", "body", "span"] with
  | some [some attributes, some visibility, some name, some parameters, resultName,
      some resultType, contract, some body, some span] =>
    return ⟨← list? Attribute.decode attributes, ← Visibility.decode visibility,
      ← decodeName name, ← list? TypedName.decode parameters, ← optional? decodeName resultName,
      ← decodeType resultType, ← optional? Contract.decode contract, ← decodeExpr body,
      ← Span.decode span⟩
  | _ => none

/-- A definition. -/
def Item.decode (value : Value) : Option Item :=
  match value.variant? with
  | some ("Use", some content) => (UseItem.decode content).map .use
  | some ("StructDef", some content) => (StructItem.decode content).map .struct
  | some ("EnumDef", some content) => (EnumItem.decode content).map .enum
  | some ("FnDef", some content) => (FunctionItem.decode content).map .function
  | _ => none

/-- A program. -/
def Program.decode (value : Value) : Option Program :=
  match value.record? ["items"] with
  | some [some items] => (list? Item.decode items).map fun items => ⟨items⟩
  | _ => none

end ContractSyntax
