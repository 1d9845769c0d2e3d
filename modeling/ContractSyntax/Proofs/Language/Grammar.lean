/-
**The grammar: which rows of tokens are sentences.**

A context-free grammar over tokens without their places. It knows nothing of trees, of how they are
read, or of any limit on nesting. `Rule` lists the ways to write a phrase of each category; where a
rule has a condition, it is one on a single token, or on the operator or the type that it is about.

* A `let` in a block extends to the closing brace: what follows its semicolon are the statements
  that remain, so no rule for statements has anything after it.
* A comma may follow the last member of a list, but a comma alone is no list.
* The ladder of infix operators has six tiers below the operators before an operand.
-/

import ContractSyntax.Decimal.Reading
import ContractSyntax.Tree.Printer

namespace ContractSyntax

/-- The categories of phrases. -/
inductive Category where
  | name
  | literal
  /-- Phrases with commas between them. -/
  | list (member : Category)
  | type
  | pattern
  | expr
  /-- An expression other than a `let`. -/
  | unbound
  /-- Operands with infix operators between them that bind as tightly as stated, or more. -/
  | tier (power : Nat)
  | unary
  | suffixed
  | primary
  /-- The word `mut`, or nothing. -/
  | mutability
  /-- A type after a colon, or nothing. -/
  | typing
  | arm
  | field
  /-- The statements of a block and its value. -/
  | statements
  /-- A name before a colon, or nothing. -/
  | label
  | condition
  /-- An expression after a reserved word, or nothing. -/
  | clause (word : Keyword)
  | contract
  | mark
  | attributes
  | visibility
  | typedName
  | variant
  | path
  | item
  | program

/-- One element of a rule. -/
inductive Element where
  | token (token : Token)
  | of (category : Category)

namespace Element

/-- A reserved word. -/
abbrev word (word : Keyword) : Element := token (.keyword word)

/-- A symbol. -/
abbrev sign (symbol : Symbol) : Element := token (.symbol symbol)

end Element

open Element in
/-- The ways to write a phrase of each category. -/
inductive Rule : Category → List Element → Prop
  -- names, literals and lists
  | name (text : String) : Rule .name [token (.ident text)]
  | int {digits : String} (fits : digitsValue digits.toList < int64Bound) :
      Rule .literal [token (.int digits)]
  | float {digits : String} (finite : (readBinary64? digits).isSome = true) :
      Rule .literal [token (.float digits)]
  | string (content : String) : Rule .literal [token (.string content)]
  | true : Rule .literal [word .true_]
  | false : Rule .literal [word .false_]
  | emptyList (member : Category) : Rule (.list member) []
  | endOfList (member : Category) : Rule (.list member) [of member]
  | moreOfList (member : Category) :
      Rule (.list member) [of member, sign .comma, of (.list member)]
  -- types
  | reference : Rule .type [sign .ampersand, of .mutability, of .type]
  | arrayType {digits : String} (fits : digitsValue digits.toList < UInt64.size) :
      Rule .type [sign .leftBracket, of .type, sign .semicolon, token (.int digits),
        sign .rightBracket]
  | primitive (base : Primitive) : Rule .type [word base.word]
  | refined {base : Primitive} (refinable : base ≠ .string) :
      Rule .type [word base.word, sign .leftBrace, of (.list .expr), sign .rightBrace]
  | unitType : Rule .type [sign .leftParen, sign .rightParen]
  | namedType : Rule .type [of .name]
  -- patterns
  | wildcard : Rule .pattern [word .underscore]
  | literalPattern : Rule .pattern [of .literal]
  | namePattern : Rule .pattern [of .name]
  | variantPattern : Rule .pattern [of .name, sign .colonColon, of .name]
  | variantPatternOf :
      Rule .pattern [of .name, sign .colonColon, of .name, sign .leftParen, of (.list .name),
        sign .rightParen]
  -- constructs
  | binding :
      Rule .expr [word .let_, of .mutability, of .name, of .typing, sign .equal, of .expr,
        sign .semicolon, of .expr]
  | unbound : Rule .expr [of .unbound]
  | conditional :
      Rule .unbound [word .if_, of .expr, word .then_, of .expr, word .else_, of .expr]
  | matching :
      Rule .unbound [word .match_, of .expr, sign .leftBrace, of (.list .arm), sign .rightBrace]
  | whileLoop :
      Rule .unbound [word .while_, of .expr, sign .leftBrace, of .expr, sign .rightBrace]
  | forLoop :
      Rule .unbound [word .for_, of .name, word .in_, of .expr, sign .leftBrace, of .expr,
        sign .rightBrace]
  | block : Rule .unbound [sign .leftBrace, of .statements, sign .rightBrace]
  | operators : Rule .unbound [of (.tier 1)]
  | arm : Rule .arm [of .pattern, sign .fatArrow, of .expr]
  | mutable : Rule .mutability [word .mut_]
  | immutable : Rule .mutability []
  | annotated : Rule .typing [sign .colon, of .type]
  | unannotated : Rule .typing []
  -- blocks
  | noStatements : Rule .statements []
  | value : Rule .statements [of .unbound]
  | statement : Rule .statements [of .unbound, sign .semicolon, of .statements]
  | assignment :
      Rule .statements [of .name, sign .equal, of .expr, sign .semicolon, of .statements]
  | bindingRest :
      Rule .statements [word .let_, of .mutability, of .name, of .typing, sign .equal, of .expr,
        sign .semicolon, of .statements]
  -- operators
  | binary (operator : BinaryOperator) :
      Rule (.tier operator.power)
        [of (.tier operator.power), token operator.token, of (.tier (operator.power + 1))]
  | tighter {power : Nat} (infixes : power < unaryPower) :
      Rule (.tier power) [of (.tier (power + 1))]
  | tightest : Rule (.tier unaryPower) [of .unary]
  | least : Rule .unary [sign .minus, token (.int "9223372036854775808")]
  | negate : Rule .unary [sign .minus, of .unary]
  | not : Rule .unary [word .not_, of .unary]
  | referTo : Rule .unary [sign .ampersand, of .unary]
  | referMutably : Rule .unary [sign .ampersand, word .mut_, of .unary]
  | dereference : Rule .unary [sign .star, of .unary]
  | unsigned : Rule .unary [of .suffixed]
  | state (moment : Moment) :
      Rule .suffixed [of .suffixed, sign .dot, word moment.word]
  | methodCall :
      Rule .suffixed [of .suffixed, sign .dot, of .name, sign .leftParen, of (.list .expr),
        sign .rightParen]
  | access : Rule .suffixed [of .suffixed, sign .dot, of .name]
  | index : Rule .suffixed [of .suffixed, sign .leftBracket, of .expr, sign .rightBracket]
  | operand : Rule .suffixed [of .primary]
  -- operands
  | literalOperand : Rule .primary [of .literal]
  | ret : Rule .primary [word .ret]
  | it : Rule .primary [word .it]
  | unit : Rule .primary [sign .leftParen, sign .rightParen]
  | paren : Rule .primary [sign .leftParen, of .expr, sign .rightParen]
  | array : Rule .primary [sign .leftBracket, of (.list .expr), sign .rightBracket]
  | construct :
      Rule .primary [word .new, of .name, sign .leftBrace, of (.list .field), sign .rightBrace]
  | field : Rule .field [of .name, sign .colon, of .expr]
  | var : Rule .primary [of .name]
  | call : Rule .primary [of .name, sign .leftParen, of (.list .expr), sign .rightParen]
  | variantOperand : Rule .primary [of .name, sign .colonColon, of .name]
  | variantOperandOf :
      Rule .primary [of .name, sign .colonColon, of .name, sign .leftParen, of (.list .expr),
        sign .rightParen]
  -- contracts
  | conditions :
      Rule .contract [word .where_, sign .leftBrace, of (.list .condition), sign .rightBrace]
  | clauses : Rule .contract [of (.clause .pre), of (.clause .post)]
  | condition : Rule .condition [of .label, of .expr]
  | labelled : Rule .label [of .name, sign .colon]
  | unlabelled : Rule .label []
  | clause (start : Keyword) : Rule (.clause start) [word start, of .expr]
  | noClause (start : Keyword) : Rule (.clause start) []
  -- definitions
  | mark : Rule .mark [sign .at_, of .name]
  | markOf :
      Rule .mark [sign .at_, of .name, sign .leftParen, of (.list .expr), sign .rightParen]
  | attributes : Rule .attributes [of .mark, of .attributes]
  | noAttributes : Rule .attributes []
  | shown : Rule .visibility [word .pub]
  | hidden : Rule .visibility []
  | typedName : Rule .typedName [of .name, sign .colon, of .type]
  | variant : Rule .variant [of .name]
  | variantOf : Rule .variant [of .name, sign .leftParen, of (.list .type), sign .rightParen]
  | path : Rule .path [of .name, sign .colonColon, of .path]
  | endOfPath : Rule .path [of .name]
  | use : Rule .item [word .use, of .path, sign .semicolon]
  | struct :
      Rule .item [of .attributes, of .visibility, word .struct, of .name, sign .leftBrace,
        of (.list .typedName), sign .rightBrace]
  | enum :
      Rule .item [of .attributes, of .visibility, word .enum, of .name, sign .leftBrace,
        of (.list .variant), sign .rightBrace]
  | function :
      Rule .item [of .attributes, of .visibility, word .fn, of .name, sign .leftParen,
        of (.list .typedName), sign .rightParen, sign .arrow, of .label, of .type, of .contract,
        sign .equal, of .expr, sign .semicolon]
  | program : Rule .program [of .item, of .program]
  | endOfProgram : Rule .program []

/-- Tokens that are written for the elements of a rule, one after the other. -/
inductive Spells : List Element → List Token → Prop
  | nothing : Spells [] []
  | token (token : Token) {elements : List Element} {tokens : List Token}
      (continued : Spells elements tokens) :
      Spells (.token token :: elements) (token :: tokens)
  | of {category : Category} {body elements : List Element} {first second : List Token}
      (rule : Rule category body) (inner : Spells body first)
      (continued : Spells elements second) :
      Spells (.of category :: elements) (first ++ second)

/-- Whether some tokens are a phrase of a category. -/
def Sentence (category : Category) (tokens : List Token) : Prop :=
  ∃ body, Rule category body ∧ Spells body tokens

namespace Sentence

variable {category : Category} {elements : List Element} {first second : List Token}

/-- A sentence is spelled in the place of its category. -/
theorem before (sentence : Sentence category first) (continued : Spells elements second) :
    Spells (.of category :: elements) (first ++ second) := by
  obtain ⟨body, rule, inner⟩ := sentence
  exact .of rule inner continued

theorem last (sentence : Sentence category first) : Spells [.of category] first := by
  simpa using sentence.before .nothing

end Sentence

end ContractSyntax
