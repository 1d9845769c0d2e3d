/-
**Serialized data.**

Trees are exchanged as plain data: numbers, strings, lists, and objects whose fields keep their
order. A choice between variants is written as the name of the variant, or as an object whose only
field is named for it; a record is an object or the list of its fields.
-/

import ContractSyntax.Decimal.Reading

namespace ContractSyntax

/-- Plain data. -/
inductive Value where
  | null
  | bool (value : Bool)
  | int (value : Int)
  | float (value : Binary64)
  | string (value : String)
  | array (items : List Value)
  | object (fields : List (String × Value))

namespace Value

instance : Inhabited Value := ⟨.null⟩

mutual

/-- How many values stand inside one another, with this one. -/
def depth : Value → Nat
  | array items => depthOfItems items + 1
  | object fields => depthOfFields fields + 1
  | _ => 1

/-- The greatest depth in a list. -/
def depthOfItems : List Value → Nat
  | [] => 0
  | item :: rest => max item.depth (depthOfItems rest)

/-- The greatest depth among fields. -/
def depthOfFields : List (String × Value) → Nat
  | [] => 0
  | (_, value) :: rest => max value.depth (depthOfFields rest)

end

/-- A variant with its content. -/
def variant (name : String) (content : Value) : Value := object [(name, content)]

/-- A whole number. -/
def nat (value : Nat) : Value := int value

/-- The data of an optional part. -/
def optional {α : Type} (encode : α → Value) : Option α → Value
  | some value => encode value
  | none => null

/-- The data of a list. -/
def list {α : Type} (encode : α → Value) (items : List α) : Value := array (items.map encode)

/-! ### Taking data apart -/

/-- The name of a variant, and its content if it has some. -/
def variant? : Value → Option (String × Option Value)
  | string name => some (name, none)
  | object [(name, content)] => some (name, some content)
  | _ => none

/-- The fields of an object by their names, in order. A field may be missing. -/
def fields? (names : List String) : Value → Option (List (Option Value))
  | object fields => some (names.map fun name => fields.lookup name)
  | _ => none

/-- The fields of a record by their names, in order. Those of a list stand without their names, and
none of them is missing. -/
def record? (names : List String) : Value → Option (List (Option Value))
  | array items => if items.length = names.length then some (items.map some) else none
  | value => value.fields? names

/-- The items of a list with as many as stated. -/
def tuple? (count : Nat) : Value → Option (List Value)
  | array items => if items.length = count then some items else none
  | _ => none

/-- A string. -/
def string? : Value → Option String
  | string value => some value
  | _ => none

/-- A truth value. -/
def bool? : Value → Option Bool
  | bool value => some value
  | _ => none

/-- A whole number in the range of `Int64`. -/
def int64? : Value → Option Int64
  | int value => if -int64Bound ≤ value ∧ value < int64Bound then some (Int64.ofInt value) else none
  | _ => none

/-- A whole number in the range of `UInt64`. -/
def uint64? : Value → Option UInt64
  | int value => if 0 ≤ value ∧ value < UInt64.size then some (UInt64.ofNat value.toNat) else none
  | _ => none

/-- A floating-point number; a whole number is rounded to the nearest one. -/
def float? : Value → Option Binary64
  | float value => some value
  | int value => some ((Binary64.ofRatio value.natAbs 1).withSign (value < 0))
  | _ => none

/-- A list whose items can all be decoded. -/
def list? {α : Type} (decode : Value → Option α) : Value → Option (List α)
  | array items => items.mapM decode
  | _ => none

/-- An optional part of a list or record, where nothing may stand for null. -/
def optional? {α : Type} (decode : Value → Option α) : Option Value → Option (Option α)
  | none | some null => some none
  | some value => (decode value).map some

/-- The variant without content that a value names. -/
def unit? (value : Value) : Option String :=
  match value.variant? with
  | some (name, none) | some (name, some null) => some name
  | _ => none

end Value

end ContractSyntax
