/-
**The built-in scalar types.**

Each is named by a reserved word. All but the string type may carry a refinement.
-/

import ContractSyntax.Keyword

namespace ContractSyntax

/-- A built-in scalar type. -/
inductive Primitive where
  | i32 | i64 | f64 | bool | string
  deriving DecidableEq, Inhabited, Repr

namespace Primitive

/-- The reserved word of the type. -/
def word : Primitive → Keyword
  | i32 => .i32 | i64 => .i64 | f64 => .f64 | bool => .bool | string => .string

/-- The type that a reserved word names. -/
def ofWord? : Keyword → Option Primitive
  | .i32 => some i32 | .i64 => some i64 | .f64 => some f64 | .bool => some bool
  | .string => some string
  | _ => none

/-- The name of the type. -/
def text (primitive : Primitive) : String := primitive.word.text

/-- Whether constraints in braces may follow the name. -/
def isRefinable : Primitive → Bool
  | string => false
  | _ => true

theorem ofWord?_word (primitive : Primitive) : ofWord? primitive.word = some primitive := by
  cases primitive <;> rfl

theorem word_of_ofWord? {word : Keyword} {primitive : Primitive}
    (found : ofWord? word = some primitive) : primitive.word = word := by
  unfold ofWord? at found
  split at found <;> cases found <;> rfl

end Primitive

end ContractSyntax
