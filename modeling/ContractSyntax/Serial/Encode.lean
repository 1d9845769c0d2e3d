/-
**Trees as plain data.**

Each variant is written under its name, with its parts in the order in which they are declared, and
no part is left out.
-/

import ContractSyntax.Serial.Value
import ContractSyntax.Tree.Item

namespace ContractSyntax

open Value

/-- A span by its two ends. -/
def Span.encode (span : Span) : Value := object [("start", nat span.start), ("end", nat span.stop)]

/-- A value with its span. -/
def Spanned.encode {α : Type} (encode : α → Value) (place : Spanned α) : Value :=
  object [("node", encode place.node), ("span", place.span.encode)]

/-- A name with its span. -/
def encodeName (name : Name) : Value := name.encode string

/-- A token under the name of its kind, a reserved word as a name. -/
def Token.encode : Token → Value
  | int digits => .variant "IntLit" (.string digits)
  | float digits => .variant "FloatLit" (.string digits)
  | string content => .variant "StringLit" (.string content)
  | ident name => .variant "Ident" (.string name)
  | keyword word => .variant "Ident" (.string word.text)
  | symbol sign => .string sign.label

/-- The name of a built-in type. -/
def Primitive.label : Primitive → String
  | i32 => "I32" | i64 => "I64" | f64 => "F64" | bool => "Bool" | string => "String"

/-- The name of an infix operator. -/
def BinaryOperator.label : BinaryOperator → String
  | or => "Or" | and => "And" | equal => "Eq" | notEqual => "Ne" | less => "Lt"
  | greater => "Gt" | lessEqual => "Le" | greaterEqual => "Ge" | range => "Range"
  | rangeExclusive => "RangeExclusive" | rangeInclusive => "RangeInclusive" | add => "Add"
  | subtract => "Sub" | multiply => "Mul" | divide => "Div" | remainder => "Mod"

/-- The name of an operator before its operand. -/
def UnaryOperator.label : UnaryOperator → String
  | negate => "Neg" | not => "Not" | reference => "Ref" | mutableReference => "RefMut"
  | dereference => "Deref"

/-- The name of a moment. -/
def Moment.label : Moment → String
  | pre => "Pre" | post => "Post"

/-- The name of a visibility. -/
def Visibility.label : Visibility → String
  | hidden => "Private" | shown => "Public"

/-- A literal in a pattern. -/
def PatternLiteral.encode : PatternLiteral → Value
  | int value => .variant "Int" (.int value.toInt)
  | float value => .variant "Float" (.float value)
  | string content => .variant "String" (.string content)
  | bool value => .variant "Bool" (.bool value)

/-- A pattern. -/
def Pattern.encode : Pattern → Value
  | wildcard => .string "Wildcard"
  | bind name => .variant "Var" (.string name)
  | literal value => .variant "Literal" value.encode
  | variant enumeration chosen bindings =>
    .variant "EnumVariant" <| object
      [("enum_name", encodeName enumeration), ("variant", encodeName chosen),
        ("bindings", optional (list encodeName) bindings)]

mutual

/-- An expression. -/
def Expr.encode : Expr → Value
  | .int value => .variant "IntLit" (.int value.toInt)
  | .float value => .variant "FloatLit" (.float value)
  | .string content => .variant "StringLit" (.string content)
  | .bool value => .variant "BoolLit" (.bool value)
  | .unit => .string "Unit"
  | .var name => .variant "Var" (.string name)
  | .ret => .string "Ret"
  | .it => .string "It"
  | .binary left operator right =>
    .variant "Binary" <| object
      [("left", encodeSpanned left), ("op", .string operator.label),
        ("right", encodeSpanned right)]
  | .unary operator operand =>
    .variant "Unary" <| object [("op", .string operator.label), ("expr", encodeSpanned operand)]
  | .conditional condition yes no =>
    .variant "If" <| object
      [("cond", encodeSpanned condition), ("then_branch", encodeSpanned yes),
        ("else_branch", encodeSpanned no)]
  | .binding isMutable name type value body =>
    .variant "Let" <| object
      [("mutable", .bool isMutable), ("name", encodeName name), ("ty", encodeStated type),
        ("value", encodeSpanned value), ("body", encodeSpanned body)]
  | .matching subject arms =>
    .variant "Match" <| object [("expr", encodeSpanned subject), ("arms", array (encodeArms arms))]
  | .whileLoop condition body =>
    .variant "While" <| object [("cond", encodeSpanned condition), ("body", encodeSpanned body)]
  | .forLoop name range body =>
    .variant "For" <| object
      [("var", encodeName name), ("iter", encodeSpanned range), ("body", encodeSpanned body)]
  | .block statements last =>
    .variant "Block" <| object
      [("stmts", array (encodeExprs statements)), ("tail", encodeLast last)]
  | .assign name value =>
    .variant "Assign" <| object [("name", encodeName name), ("value", encodeSpanned value)]
  | .methodCall receiver method given =>
    .variant "MethodCall" <| object
      [("receiver", encodeSpanned receiver), ("method", encodeName method),
        ("args", array (encodeExprs given))]
  | .field receiver name =>
    .variant "FieldAccess" <| object
      [("expr", encodeSpanned receiver), ("field", encodeName name)]
  | .index receiver position =>
    .variant "Index" <| object
      [("expr", encodeSpanned receiver), ("index", encodeSpanned position)]
  | .state receiver moment =>
    .variant "StateRef" <| object
      [("expr", encodeSpanned receiver), ("state", .string moment.label)]
  | .call function given =>
    .variant "Call" <| object
      [("func", encodeName function), ("args", array (encodeExprs given))]
  | .variant enumeration chosen given =>
    .variant "EnumVariant" <| object
      [("enum_name", encodeName enumeration), ("variant", encodeName chosen),
        ("args", encodeArguments given)]
  | .construct name fields =>
    .variant "StructInit" <| object
      [("name", encodeName name), ("fields", array (encodeFields fields))]
  | .array elements => .variant "ArrayLit" (array (encodeExprs elements))
  | .paren inner => .variant "Paren" (encodeSpanned inner)

/-- An expression with its span. -/
def encodeSpanned : Spanned Expr → Value
  | ⟨node, span⟩ => object [("node", node.encode), ("span", span.encode)]

/-- Expressions with their spans. -/
def encodeExprs : List (Spanned Expr) → List Value
  | [] => []
  | expr :: rest => encodeSpanned expr :: encodeExprs rest

/-- Optional arguments. -/
def encodeArguments : Option (List (Spanned Expr)) → Value
  | none => null
  | some given => array (encodeExprs given)

/-- The optional value of a block. -/
def encodeLast : Option (Spanned Expr) → Value
  | none => null
  | some expr => encodeSpanned expr

/-- An optional type. -/
def encodeStated : Option (Spanned Ty) → Value
  | none => null
  | some ⟨node, span⟩ => object [("node", node.encode), ("span", span.encode)]

/-- An alternative of a `match`. -/
def MatchArm.encode : MatchArm → Value
  | .mk pattern body =>
    object [("pattern", pattern.encode Pattern.encode), ("body", encodeSpanned body)]

/-- The alternatives of a `match`. -/
def encodeArms : List MatchArm → List Value
  | [] => []
  | arm :: rest => arm.encode :: encodeArms rest

/-- A field of a new structure, as a pair. -/
def FieldValue.encode : FieldValue → Value
  | .mk name value => array [encodeName name, encodeSpanned value]

/-- The fields of a new structure. -/
def encodeFields : List FieldValue → List Value
  | [] => []
  | field :: rest => field.encode :: encodeFields rest

/-- A type. -/
def Ty.encode : Ty → Value
  | .primitive base => .variant "Primitive" (.string base.label)
  | .unit => .string "Unit"
  | .reference target => .variant "Ref" target.encode
  | .mutableReference target => .variant "RefMut" target.encode
  | .array element length => .variant "Array" (array [element.encode, nat length.toNat])
  | .refined base constraints =>
    .variant "Refined" <| object
      [("base", .string base.label), ("constraints", array (encodeExprs constraints))]
  | .named name => .variant "Named" (.string name)

end

/-- A condition of a contract. -/
def Condition.encode (condition : Condition) : Value :=
  object [("name", optional encodeName condition.label),
    ("condition", encodeSpanned condition.condition)]

/-- A contract. -/
def Contract.encode : Contract → Value
  | conditions listed => .variant "Where" (list Condition.encode listed)
  | clauses pre post =>
    .variant "Legacy" <| object
      [("pre", optional encodeSpanned pre), ("post", optional encodeSpanned post)]

/-- An attribute. -/
def Attribute.encode (mark : Attribute) : Value :=
  object [("name", encodeName mark.name), ("args", optional (list encodeSpanned) mark.arguments),
    ("span", mark.span.encode)]

/-- The path of a module. -/
def UseItem.encode (item : UseItem) : Value :=
  object [("path", list encodeName item.path), ("span", item.span.encode)]

/-- A field or a parameter. -/
def TypedName.encode (typed : TypedName) : Value :=
  object [("name", encodeName typed.name), ("ty", typed.type.encode Ty.encode)]

/-- A structure. -/
def StructItem.encode (item : StructItem) : Value :=
  object [("attributes", list Attribute.encode item.attributes),
    ("visibility", .string item.visibility.label), ("name", encodeName item.name),
    ("fields", list TypedName.encode item.fields), ("span", item.span.encode)]

/-- A variant of an enumeration. -/
def Variant.encode (variant : Variant) : Value :=
  object [("name", encodeName variant.name),
    ("fields", optional (list (Spanned.encode Ty.encode)) variant.parts)]

/-- An enumeration. -/
def EnumItem.encode (item : EnumItem) : Value :=
  object [("attributes", list Attribute.encode item.attributes),
    ("visibility", .string item.visibility.label), ("name", encodeName item.name),
    ("variants", list Variant.encode item.variants), ("span", item.span.encode)]

/-- A function. -/
def FunctionItem.encode (item : FunctionItem) : Value :=
  object [("attributes", list Attribute.encode item.attributes),
    ("visibility", .string item.visibility.label), ("name", encodeName item.name),
    ("params", list TypedName.encode item.parameters),
    ("ret_name", optional encodeName item.resultName),
    ("ret_ty", item.resultType.encode Ty.encode),
    ("contract", optional Contract.encode item.contract), ("body", encodeSpanned item.body),
    ("span", item.span.encode)]

/-- A definition. -/
def Item.encode : Item → Value
  | use item => .variant "Use" item.encode
  | struct item => .variant "StructDef" item.encode
  | enum item => .variant "EnumDef" item.encode
  | function item => .variant "FnDef" item.encode

/-- A program. -/
def Program.encode (program : Program) : Value :=
  object [("items", list Item.encode program.items)]

end ContractSyntax
