/-
**Operators and their binding power.**

The six tiers of infix operators, from `or` at one to `*` at six, lie below the sign operators at
seven and the suffixes of an operand at eight.

* `BinaryOperator.ofToken?_token`: an operator is found by its token;
* `BinaryOperator.token_of_ofToken?`: and by no other.
-/

import ContractSyntax.Token

namespace ContractSyntax

/-- The operators between two operands. -/
inductive BinaryOperator where
  | or | and
  | equal | notEqual | less | greater | lessEqual | greaterEqual
  | range | rangeExclusive | rangeInclusive
  | add | subtract | multiply | divide | remainder
  deriving DecidableEq, Inhabited, Repr

namespace BinaryOperator

/-- How tightly the operator binds. -/
def power : BinaryOperator → Nat
  | or => 1
  | and => 2
  | equal | notEqual | less | greater | lessEqual | greaterEqual => 3
  | range | rangeExclusive | rangeInclusive => 4
  | add | subtract => 5
  | multiply | divide | remainder => 6

/-- The token of the operator. -/
def token : BinaryOperator → Token
  | or => .keyword .or_ | and => .keyword .and_
  | equal => .symbol .equalEqual | notEqual => .symbol .notEqual
  | less => .symbol .less | greater => .symbol .greater
  | lessEqual => .symbol .lessEqual | greaterEqual => .symbol .greaterEqual
  | range => .symbol .dotDot | rangeExclusive => .symbol .dotDotLess
  | rangeInclusive => .symbol .dotDotEqual
  | add => .symbol .plus | subtract => .symbol .minus
  | multiply => .symbol .star | divide => .symbol .slash | remainder => .symbol .percent

/-- The operator that a token stands for between two operands. -/
def ofToken? : Token → Option BinaryOperator
  | .keyword .or_ => some or | .keyword .and_ => some and
  | .symbol .equalEqual => some equal | .symbol .notEqual => some notEqual
  | .symbol .less => some less | .symbol .greater => some greater
  | .symbol .lessEqual => some lessEqual | .symbol .greaterEqual => some greaterEqual
  | .symbol .dotDot => some range | .symbol .dotDotLess => some rangeExclusive
  | .symbol .dotDotEqual => some rangeInclusive
  | .symbol .plus => some add | .symbol .minus => some subtract
  | .symbol .star => some multiply | .symbol .slash => some divide
  | .symbol .percent => some remainder
  | _ => none

theorem ofToken?_token (operator : BinaryOperator) : ofToken? operator.token = some operator := by
  cases operator <;> rfl

theorem token_of_ofToken? {token : Token} {operator : BinaryOperator}
    (found : ofToken? token = some operator) : operator.token = token := by
  unfold ofToken? at found
  split at found <;> cases found <;> rfl

theorem power_le (operator : BinaryOperator) : operator.power ≤ 6 := by
  cases operator <;> decide

theorem one_le_power (operator : BinaryOperator) : 1 ≤ operator.power := by
  cases operator <;> decide

end BinaryOperator

/-- The operators before one operand. -/
inductive UnaryOperator where
  | negate | not | reference | mutableReference | dereference
  deriving DecidableEq, Inhabited, Repr

/-- How tightly an operator before its operand binds. -/
def unaryPower : Nat := 7

/-- How tightly an operand binds that needs no operator. -/
def operandPower : Nat := 8

end ContractSyntax
