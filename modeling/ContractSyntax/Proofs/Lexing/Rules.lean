/-
**The lexical rules.**

What may be read at a place of a text is said by rules, each of which is a language: white space and
comments, which are passed over, then numbers, strings, words and the symbols, which are tokens. Of
the rules that match at a place the scan follows the one that matches the longest text. It has no
choice to make between two rules that match the same text, since they make the same token of it.

* `LexicalRule.language`: the texts that a rule matches;
* `LexicalRule.token?`: the token that it makes of one of them;
* `Token.WellFormed.of_rule`, `Token.WellFormed.exists_rule`: the tokens that rules make are those
  of the shape of their kind;
* `LexicalRule.token?_eq`: every rule that matches what such a token is written with makes it;
* `LexicalRule.length_le`: no rule matches more than a token that ends where the rest begins;
* `LexicalRule.not_prefix_of_stuck`: no rule matches where the scan is stuck.
-/

import ContractSyntax.Proofs.Lexing.Scans
import Mathlib.Computability.Language

namespace ContractSyntax

open scoped Computability

/-! ### Languages -/

/-- One character of a kind. -/
def oneOf (kind : Char → Bool) : Language Char :=
  {text | ∃ character, kind character = true ∧ text = [character]}

/-- A text and no other. -/
def only (text : String) : Language Char := {text.toList}

section Languages

variable {kind : Char → Bool} {others : Language Char} {text : List Char}

theorem mem_oneOf_mul :
    text ∈ oneOf kind * others ↔
      ∃ first rest, text = first :: rest ∧ kind first = true ∧ rest ∈ others := by
  rw [Language.mem_mul]
  constructor
  · rintro ⟨_, ⟨first, within, rfl⟩, rest, member, rfl⟩
    exact ⟨first, rest, rfl, within, member⟩
  · rintro ⟨first, rest, rfl, within, member⟩
    exact ⟨[first], ⟨first, within, rfl⟩, rest, member, rfl⟩

theorem mem_oneOf_kstar :
    text ∈ (oneOf kind)∗ ↔ ∀ character ∈ text, kind character = true := by
  rw [Language.mem_kstar]
  constructor
  · rintro ⟨parts, rfl, within⟩ character member
    obtain ⟨part, inside, member⟩ := List.mem_flatten.mp member
    obtain ⟨_, kind, rfl⟩ := within part inside
    rwa [List.mem_singleton.mp member]
  · intro within
    refine ⟨text.map fun character => [character], ?_, fun part member => ?_⟩
    · rw [← List.flatMap_def, List.flatMap_singleton']
    · obtain ⟨character, inside, rfl⟩ := List.mem_map.mp member
      exact ⟨character, within character inside, rfl⟩

theorem mem_only {spelled : String} : text ∈ only spelled ↔ text = spelled.toList := Iff.rfl

theorem mem_only_mul {spelled : String} :
    text ∈ only spelled * others ↔ ∃ rest, text = spelled.toList ++ rest ∧ rest ∈ others := by
  rw [Language.mem_mul]
  constructor
  · rintro ⟨_, rfl, rest, member, rfl⟩
    exact ⟨rest, rfl, member⟩
  · rintro ⟨rest, rfl, member⟩
    exact ⟨_, rfl, rest, member, rfl⟩

end Languages

/-- One digit or more. -/
def digits : Language Char := oneOf Char.isDigit * (oneOf Char.isDigit)∗

theorem mem_digits {text : List Char} :
    text ∈ digits ↔ text ≠ [] ∧ ∀ digit ∈ text, digit.isDigit = true := by
  simp only [digits, mem_oneOf_mul, mem_oneOf_kstar]
  constructor
  · rintro ⟨first, rest, rfl, digit, within⟩
    exact ⟨List.cons_ne_nil _ _, List.forall_mem_cons.mpr ⟨digit, within⟩⟩
  · rintro ⟨some, within⟩
    obtain ⟨first, rest, rfl⟩ := List.exists_cons_of_ne_nil some
    exact ⟨first, rest, rfl, List.forall_mem_cons.mp within⟩

/-! ### Rules -/

/-- What may be read at a place of a text. -/
inductive LexicalRule where
  /-- White space and byte order marks. -/
  | white
  /-- Two slashes and the rest of the line. -/
  | comment
  | float
  | int
  | string
  | word
  | symbol (sign : Symbol)
  deriving DecidableEq, Inhabited, Repr

namespace LexicalRule

/-- The texts that a rule matches. -/
def language : LexicalRule → Language Char
  | white => oneOf isBlank * (oneOf isBlank)∗
  | comment => only "//" * (oneOf (· != '\n'))∗
  | float => digits * (only "." * digits)
  | int => digits
  | string => only "\"" * ((oneOf (· != '"'))∗ * only "\"")
  | word => oneOf startsWord * (oneOf continuesWord)∗
  | symbol sign => only sign.text

/-- The token that a rule makes of a text that it matches, if it does not pass over it. -/
def token? (rule : LexicalRule) (text : List Char) : Option Token :=
  match rule with
  | white | comment => none
  | float => some (.float (String.ofList text))
  | int => some (.int (String.ofList text))
  | string => some (.string (String.ofList text.tail.dropLast))
  | word => some (.ofWord (String.ofList text))
  | symbol sign => some (.symbol sign)

end LexicalRule

/-- A symbol, or a longer one, is taken where a symbol is written. -/
theorem Symbol.take?_ne_none (sign : Symbol) (rest : List Char) :
    take? (sign.text.toList ++ rest) ≠ none := by
  by_cases stops : (Token.symbol sign).Stops rest
  · rw [take?_text stops]
    exact Option.some_ne_none _
  · obtain ⟨next, head, joined⟩ : ∃ next, rest.head? = some next ∧ sign.joins next = true := by
      simpa [Token.Stops] using stops
    obtain ⟨after, rfl⟩ := List.head?_eq_some_iff.mp head
    cases sign with
    | dot =>
      -- Two points are a symbol, with which others go on in turn.
      simp only [joins, beq_iff_eq] at joined
      subst joined
      exact take?_ne_none dotDot after
    | dotDot | colon | minus | equal | less | greater =>
      simp only [joins, Bool.or_eq_true, beq_iff_eq] at joined
      rcases joined with rfl | rfl <;> exact Option.some_ne_none _
    | slash => exact Option.some_ne_none _
    | _ => cases joined
termination_by rest.length

namespace Token

variable {rule : LexicalRule} {text rest : List Char} {token other : Token}

/-- What a rule makes of a text that it matches is a token that is written with it. -/
theorem WellFormed.of_rule (matched : text ∈ rule.language) (made : rule.token? text = some token) :
    token.WellFormed ∧ token.text.toList = text := by
  cases rule with
  | white | comment => cases made
  | int =>
    cases made
    refine ⟨?_, String.toList_ofList⟩
    simp only [WellFormed, String.toList_ofList]
    exact mem_digits.mp matched
  | float =>
    cases made
    refine ⟨?_, String.toList_ofList⟩
    obtain ⟨whole, before, _, ⟨_, rfl, places, behind, rfl⟩, rfl⟩ := matched
    obtain ⟨some, before⟩ := mem_digits.mp before
    obtain ⟨some', behind⟩ := mem_digits.mp behind
    exact ⟨whole, places, String.toList_ofList, some, some',
      List.forall_mem_append.mpr ⟨before, behind⟩⟩
  | string =>
    cases made
    obtain ⟨_, rfl, _, ⟨content, within, _, rfl, rfl⟩, rfl⟩ := matched
    have between : ("\"".toList ++ (content ++ "\"".toList)).tail.dropLast = content :=
      List.dropLast_concat
    rw [between]
    refine ⟨?_, by simp [Token.text, String.toList_append]⟩
    rw [WellFormed, String.toList_ofList]
    exact forall_bne_iff.mp (mem_oneOf_kstar.mp within)
  | word =>
    cases made
    obtain ⟨first, others, rfl, letter, within⟩ := mem_oneOf_mul.mp matched
    refine ⟨wellFormed_ofWord ⟨first, others, String.toList_ofList, letter, ?_⟩, ?_⟩
    · exact mem_oneOf_kstar.mp within
    · rw [text_ofWord, String.toList_ofList]
  | symbol sign =>
    cases made
    exact ⟨trivial, (mem_only.mp matched).symm⟩

theorem mem_word_of_isWord {spelled : String} (word : IsWord spelled) :
    spelled.toList ∈ LexicalRule.word.language := by
  obtain ⟨first, others, written, letter, within⟩ := word
  exact mem_oneOf_mul.mpr ⟨first, others, written, letter, mem_oneOf_kstar.mpr within⟩

/-- A rule matches what a token of its kind's shape is written with. -/
theorem WellFormed.exists_rule (wellFormed : token.WellFormed) :
    ∃ rule : LexicalRule, token.text.toList ∈ rule.language := by
  cases token with
  | int spelled => exact ⟨.int, mem_digits.mpr wellFormed⟩
  | float spelled =>
    obtain ⟨whole, places, written, some, some', within⟩ := wellFormed
    obtain ⟨before, behind⟩ := List.forall_mem_append.mp within
    exact ⟨.float, whole, mem_digits.mpr ⟨some, before⟩, '.' :: places,
      mem_only_mul.mpr ⟨places, rfl, mem_digits.mpr ⟨some', behind⟩⟩, written.symm⟩
  | string content =>
    have written : (string content).text.toList = "\"".toList ++ (content.toList ++ "\"".toList) := by
      simp [Token.text, String.toList_append]
    have matched := mem_oneOf_kstar.mpr (forall_bne_iff.mpr wellFormed)
    exact ⟨.string, mem_only_mul.mpr ⟨_, written, content.toList, matched, _, rfl, rfl⟩⟩
  | ident name => exact ⟨.word, mem_word_of_isWord wellFormed.1⟩
  | keyword word => exact ⟨.word, mem_word_of_isWord word.isWord⟩
  | symbol sign => exact ⟨.symbol sign, rfl⟩

/-- Nothing follows a token that goes on with it if nothing follows it. -/
theorem stops_nil (token : Token) : token.Stops [] := by
  cases token with
  | int => exact ⟨nofun, nofun⟩
  | string => trivial
  | _ => exact nofun

/-- A token that ends where the rest begins is longer than any other there. -/
theorem WellFormed.length_le (wellFormed : token.WellFormed) (stops : token.Stops rest)
    (wellFormed' : other.WellFormed) (before : other.text.toList <+: token.text.toList ++ rest) :
    other.text.toList.length ≤ token.text.toList.length := by
  rcases Nat.le_total other.text.toList.length token.text.toList.length with shorter | longer
  · exact shorter
  · -- The longer one starts with this one, which ends there too.
    obtain ⟨extra, written⟩ := List.prefix_of_prefix_length_le (List.prefix_append _ rest) before longer
    obtain ⟨after, same⟩ := before
    rw [← written, List.append_assoc, List.append_cancel_left_eq] at same
    subst same
    have taken := take?_text wellFormed stops.of_append
    have taken' := take?_text wellFormed' (stops_nil other)
    rw [List.append_nil, ← written, taken] at taken'
    cases taken'
    exact Nat.le_refl _

/-- A token is taken where one is written, if not always that one. -/
theorem WellFormed.take?_ne_none (wellFormed : token.WellFormed) (rest : List Char) :
    take? (token.text.toList ++ rest) ≠ none := by
  have word {spelled : String} (word : IsWord spelled) : take? (spelled.toList ++ rest) ≠ none := by
    obtain ⟨first, others, written, letter, _⟩ := word
    rw [written, List.cons_append, take?, if_pos letter]
    exact Option.some_ne_none _
  cases token with
  | int spelled =>
    rw [Token.text, take?_number wellFormed.1 wellFormed.2]
    exact Option.some_ne_none _
  | float spelled =>
    obtain ⟨whole, places, written, some, _, within⟩ := wellFormed
    rw [Token.text, written, List.append_assoc,
      take?_number some fun digit member => within digit (List.mem_append_left _ member)]
    exact Option.some_ne_none _
  | string content =>
    rw [take?_string wellFormed]
    exact Option.some_ne_none _
  | ident name => exact word wellFormed.1
  | keyword spelled => exact word spelled.isWord
  | symbol sign =>
    have taken := Symbol.take?_ne_none sign rest
    obtain ⟨first, others, written, letter, digit, quote, _⟩ := symbol_first sign
    rw [written, List.cons_append] at taken
    rw [show (symbol sign).text = sign.text from rfl, written, List.cons_append]
    simpa [take?, letter, digit, quote] using taken

end Token

namespace LexicalRule

variable {rule : LexicalRule} {text characters rest : List Char} {token : Token}

/-- What is passed over at the head of a text begins with a blank or is a comment. -/
theorem head_of_skipped (matched : text ∈ rule.language) (skipped : rule.token? text = none)
    (before : text <+: characters) :
    (∃ first rest, characters = first :: rest ∧ isBlank first = true) ∨
      takeComment? characters ≠ none := by
  obtain ⟨after, rfl⟩ := before
  cases rule with
  | white =>
    obtain ⟨first, others, rfl, blank, _⟩ := mem_oneOf_mul.mp matched
    exact .inl ⟨first, others ++ after, rfl, blank⟩
  | comment =>
    obtain ⟨body, rfl, _⟩ := mem_only_mul.mp matched
    exact .inr (Option.some_ne_none _)
  | _ => cases skipped

/-- Nothing is passed over where a token is written that ends where the rest begins. -/
theorem token?_ne_none (wellFormed : token.WellFormed) (stops : token.Stops rest)
    (matched : text ∈ rule.language) (before : text <+: token.text.toList ++ rest) :
    rule.token? text ≠ none := by
  intro skipped
  rcases head_of_skipped matched skipped before with ⟨first, after, written, blank⟩ | comment
  · obtain ⟨first', others, spelled, other, _⟩ := wellFormed.first
    rw [spelled, List.cons_append] at written
    cases written
    cases blank.symm.trans other
  · exact comment (Token.takeComment?_text wellFormed stops)

/-- No rule matches more than a token that ends where the rest begins. -/
theorem length_le (wellFormed : token.WellFormed) (stops : token.Stops rest)
    (matched : text ∈ rule.language) (before : text <+: token.text.toList ++ rest) :
    text.length ≤ token.text.toList.length := by
  obtain ⟨other, made⟩ :=
    Option.ne_none_iff_exists'.mp (token?_ne_none wellFormed stops matched before)
  obtain ⟨wellFormed', rfl⟩ := Token.WellFormed.of_rule matched made
  exact wellFormed.length_le stops wellFormed' before

/-- Every rule that matches what a token is written with makes that token of it. -/
theorem token?_eq (wellFormed : token.WellFormed) (matched : token.text.toList ∈ rule.language) :
    rule.token? token.text.toList = some token := by
  have stops := token.stops_nil
  obtain ⟨other, made⟩ :=
    Option.ne_none_iff_exists'.mp (token?_ne_none wellFormed stops matched (List.prefix_append _ _))
  obtain ⟨wellFormed', same⟩ := Token.WellFormed.of_rule matched made
  have taken := Token.take?_text wellFormed stops
  rw [← same, Token.take?_text wellFormed' other.stops_nil] at taken
  cases taken
  exact made

/-- No rule matches where the scan is stuck. -/
theorem not_prefix_of_stuck (stuck : Stuck characters) (matched : text ∈ rule.language) :
    ¬ text <+: characters := by
  intro before
  cases characters with
  | nil => exact stuck
  | cons first after =>
    cases made : rule.token? text with
    | none =>
      rcases head_of_skipped matched made before with ⟨_, _, same, white⟩ | comment
      · cases same
        cases stuck.1.symm.trans white
      · exact comment stuck.2.1
    | some token =>
      obtain ⟨wellFormed, rfl⟩ := Token.WellFormed.of_rule matched made
      obtain ⟨rest, written⟩ := before
      exact wellFormed.take?_ne_none rest (written ▸ stuck.2.2)

end LexicalRule

end ContractSyntax
