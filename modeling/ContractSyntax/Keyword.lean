/-
**Reserved words.**

A word of the source is either one of these or a name.

* `Keyword.ofText?_text`: a reserved word is found by its spelling;
* `Keyword.text_of_ofText?`: and by no other.
-/

namespace ContractSyntax

/-- The reserved words, in the order in which they are listed to a user. -/
inductive Keyword where
  | fn | let_ | mut_ | if_ | then_ | else_ | match_ | while_ | for_ | in_
  | pre | post | where_ | ret | it | new | true_ | false_ | and_ | or_ | not_
  | pub | use | struct | enum | underscore | i32 | i64 | f64 | bool | string
  deriving DecidableEq, Inhabited, Repr

namespace Keyword

/-- How the word is spelled. -/
def text : Keyword → String
  | fn => "fn" | let_ => "let" | mut_ => "mut" | if_ => "if" | then_ => "then"
  | else_ => "else" | match_ => "match" | while_ => "while" | for_ => "for" | in_ => "in"
  | pre => "pre" | post => "post" | where_ => "where" | ret => "ret" | it => "it"
  | new => "new" | true_ => "true" | false_ => "false" | and_ => "and" | or_ => "or"
  | not_ => "not" | pub => "pub" | use => "use" | struct => "struct" | enum => "enum"
  | underscore => "_" | i32 => "i32" | i64 => "i64" | f64 => "f64" | bool => "bool"
  | string => "String"

/-- Every reserved word. -/
def all : List Keyword :=
  [fn, let_, mut_, if_, then_, else_, match_, while_, for_, in_, pre, post, where_, ret, it, new,
    true_, false_, and_, or_, not_, pub, use, struct, enum, underscore, i32, i64, f64, bool, string]

/-- The reserved word with a given spelling. -/
def ofText? (text : String) : Option Keyword := all.find? fun word => word.text == text

theorem mem_all (word : Keyword) : word ∈ all := by
  cases word <;> decide

theorem ofText?_text (word : Keyword) : ofText? word.text = some word := by
  cases word <;> rfl

theorem text_of_ofText? {text : String} {word : Keyword} (found : ofText? text = some word) :
    word.text = text := by
  simpa using List.find?_some found

end Keyword

/-- Whether a word is reserved. -/
def isReserved (text : String) : Bool := (Keyword.ofText? text).isSome

end ContractSyntax
