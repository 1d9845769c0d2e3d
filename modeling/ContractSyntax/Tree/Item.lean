/-
**Syntax trees of definitions and programs.**
-/

import ContractSyntax.Tree.Basic

namespace ContractSyntax

/-- Whether a definition is seen from outside. -/
inductive Visibility where
  | hidden | shown
  deriving DecidableEq, Inhabited, Repr

/-- A mark on a definition, with arguments where parentheses were written. -/
structure Attribute where
  name : Name
  arguments : Option (List (Spanned Expr))
  span : Span

/-- The path of a module whose names are used. -/
structure UseItem where
  path : List Name
  span : Span

/-- A name and its type: a field or a parameter. -/
structure TypedName where
  name : Name
  type : Spanned Ty

/-- A structure definition. -/
structure StructItem where
  attributes : List Attribute
  visibility : Visibility
  name : Name
  fields : List TypedName
  span : Span

/-- A variant of an enumeration, with the types of its parts where parentheses were written. -/
structure Variant where
  name : Name
  parts : Option (List (Spanned Ty))

/-- An enumeration definition. -/
structure EnumItem where
  attributes : List Attribute
  visibility : Visibility
  name : Name
  variants : List Variant
  span : Span

/-- A function definition. -/
structure FunctionItem where
  attributes : List Attribute
  visibility : Visibility
  name : Name
  parameters : List TypedName
  /-- The name under which the contract speaks of the result. -/
  resultName : Option Name
  resultType : Spanned Ty
  contract : Option Contract
  body : Spanned Expr
  span : Span

namespace FunctionItem

/-- The condition on entry. -/
def pre? (function : FunctionItem) : Option (Spanned Expr) :=
  match function.contract with
  | some (.clauses pre _) => pre
  | _ => none

/-- The condition on exit. -/
def post? (function : FunctionItem) : Option (Spanned Expr) :=
  match function.contract with
  | some (.clauses _ post) => post
  | _ => none

end FunctionItem

/-- A definition. -/
inductive Item where
  | use (item : UseItem)
  | struct (item : StructItem)
  | enum (item : EnumItem)
  | function (item : FunctionItem)

namespace Item

/-- The text of the definition with its attributes. -/
def span : Item → Span
  | use item => item.span
  | struct item => item.span
  | enum item => item.span
  | function item => item.span

/-- The name that the definition introduces. -/
def name? : Item → Option String
  | use _ => none
  | struct item => some item.name.node
  | enum item => some item.name.node
  | function item => some item.name.node

end Item

/-- A source file: its definitions in order. -/
structure Program where
  items : List Item

/-- The function definitions in order. -/
def Program.functions (program : Program) : List FunctionItem :=
  program.items.filterMap fun
    | .function item => some item
    | _ => none

end ContractSyntax
