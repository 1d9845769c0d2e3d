/-
**Tokens that are written apart are read again.**

No token goes on with a blank. So any tokens can be written one after the other if each separator
between two of them begins with a blank, whatever else is in it: further blanks, and comments, which may
hold anything up to the newline that closes them. Before the first token and behind the last one a
separator may begin as it likes, but for a comment right behind a slash, which would be a part of it.

* `Filler`: what separators are made of;
* `Spaced.text`, `Spaced.places`: the text of tokens with separators around them, and where each of
  them is in it;
* `tokenize_written`: they are the tokens of the text.
-/

import ContractSyntax.Proofs.Lexing.Joining
import ContractSyntax.Proofs.Lexing.Rules

namespace ContractSyntax

/-! ### Separators -/

/-- What may stand between tokens: a blank, or a comment with the newline that closes it. -/
inductive Filler where
  | blank (character : Char) (separates : isBlank character = true)
  | comment (line : String) (inLine : '\n' ∉ line.toList)

namespace Filler

/-- The filler as it is written. -/
def text : Filler → String
  | blank character _ => String.singleton character
  | comment line _ => "//" ++ line ++ "\n"

/-- Some fillers as they are written, one after the other. -/
def texts : List Filler → String
  | [] => ""
  | filler :: rest => filler.text ++ texts rest

/-- Whether some fillers begin with a blank. -/
def StartWithBlank (fillers : List Filler) : Prop :=
  ∃ character separates rest, fillers = blank character separates :: rest

theorem toList_texts_blank {character : Char} (separates : isBlank character = true)
    (rest : List Filler) :
    (texts (blank character separates :: rest)).toList = character :: (texts rest).toList := by
  simp [texts, text, String.toList_append]

theorem toList_texts_comment {line : String} (inLine : '\n' ∉ line.toList) (rest : List Filler) :
    (texts (comment line inLine :: rest)).toList =
      ('/' :: '/' :: line.toList) ++ '\n' :: (texts rest).toList := by
  simp [texts, text, String.toList_append]

/-- Nothing is read of fillers. -/
theorem scans (fillers : List Filler) (behind : List Char) (offset : Nat) :
    Scans behind offset (texts fillers).toList [] := by
  induction fillers generalizing offset with
  | nil => exact .nil offset
  | cons filler rest continued =>
    cases filler with
    | blank character separates =>
      rw [toList_texts_blank]
      exact .blank separates (continued _)
    | comment line inLine =>
      rw [toList_texts_comment]
      refine .comment (takeComment?_eq_some_iff.mpr ⟨⟨_, rfl, inLine⟩, ?_⟩) ?_
      · rintro next ⟨⟩
        rfl
      · exact .blank (by decide) (continued _)

end Filler

/-! ### Spaced tokens -/

/-- A token with the separator before it. -/
structure Spaced where
  before : List Filler
  token : Token

namespace Spaced

/-- The text of some tokens with the separators before them, and a separator behind the last. -/
def text (behind : List Filler) : List Spaced → String
  | [] => Filler.texts behind
  | word :: rest => Filler.texts word.before ++ word.token.text ++ text behind rest

/-- Where the tokens are in their text, which starts at `offset`. -/
def places (offset : Nat) : List Spaced → Tokens
  | [] => []
  | word :: rest =>
    let start := offset + (Filler.texts word.before).utf8ByteSize
    let stop := start + word.token.text.utf8ByteSize
    ⟨word.token, start, stop⟩ :: places stop rest

end Spaced

namespace Token

/-- No token but a slash goes on with one. -/
theorem stops_of_slash {token : Token} (other : token ≠ .symbol .slash) (rest : List Char) :
    token.Stops ('/' :: rest) := by
  cases token with
  | string content => trivial
  | ident | keyword | float =>
    rintro next ⟨⟩
    decide
  | int digits =>
    refine ⟨?_, nofun⟩
    rintro next ⟨⟩
    decide
  | symbol sign =>
    rintro next ⟨⟩
    cases sign with
    | slash => exact absurd rfl other
    | _ => rfl

/-- Every token ends where a separator with a blank at its start begins. -/
theorem stops_of_startWithBlank (token : Token) {fillers : List Filler}
    (apart : Filler.StartWithBlank fillers) (rest : String) :
    token.Stops (Filler.texts fillers ++ rest).toList := by
  obtain ⟨character, separates, others, rfl⟩ := apart
  rw [String.toList_append, Filler.toList_texts_blank]
  exact Segment.stops_of_blank token separates _

/-- A token ends where the separator behind all tokens begins, a slash only if that does not begin
with a comment. -/
theorem stops_texts {token : Token} {behind : List Filler}
    (apart : token = .symbol .slash → behind = [] ∨ Filler.StartWithBlank behind) :
    token.Stops (Filler.texts behind).toList := by
  cases behind with
  | nil => exact token.stops_nil
  | cons filler rest =>
    cases filler with
    | blank character separates =>
      rw [Filler.toList_texts_blank]
      exact Segment.stops_of_blank token separates _
    | comment line inLine =>
      have other : token ≠ .symbol .slash := fun slash => by
        obtain empty | ⟨_, _, _, blank⟩ := apart slash
        · cases empty
        · cases blank
      rw [Filler.toList_texts_comment]
      exact stops_of_slash other _

end Token

namespace Spaced

variable {words : List Spaced} {behind : List Filler}

/-- Tokens that are written apart are written in their text. -/
theorem scans (wellFormed : ∀ word ∈ words, word.token.WellFormed)
    (apart : ∀ word ∈ words.tail, Filler.StartWithBlank word.before)
    (last : ∀ word ∈ words.getLast?,
      word.token = .symbol .slash → behind = [] ∨ Filler.StartWithBlank behind) (offset : Nat) :
    Scans [] offset (text behind words).toList (places offset words) := by
  induction words generalizing offset with
  | nil => exact Filler.scans behind [] offset
  | cons word rest continued =>
    have stops : word.token.Stops (text behind rest).toList := by
      cases rest with
      | nil => exact Token.stops_texts (last word rfl)
      | cons next others =>
        rw [text, String.append_assoc]
        exact word.token.stops_of_startWithBlank (apart next List.mem_cons_self) _
    have inside := continued (fun word member => wellFormed word (.tail _ member))
      (fun word member => apart word (List.mem_of_mem_tail member))
      (fun word member => last word (by simp [List.getLast?_cons, Option.mem_def.mp member]))
      (offset + (Filler.texts word.before).utf8ByteSize + word.token.text.utf8ByteSize)
    have here := Scans.token (wellFormed word List.mem_cons_self) (by rwa [List.append_nil]) inside
    have written : (text behind (word :: rest)).toList =
        (Filler.texts word.before).toList ++ (word.token.text.toList ++ (text behind rest).toList) := by
      rw [text, String.toList_append, String.toList_append, List.append_assoc]
    rw [written, places]
    refine (Filler.scans word.before _ offset).append ?_
    rw [byteLength_toList]
    exact here

end Spaced

/-- Tokens with separators around them, each of which begins with a blank where it stands between two
of them, are the tokens of their text, at the places where they are written. -/
theorem tokenize_written (words : List Spaced) (behind : List Filler)
    (wellFormed : ∀ word ∈ words, word.token.WellFormed)
    (apart : ∀ word ∈ words.tail, Filler.StartWithBlank word.before)
    (last : ∀ word ∈ words.getLast?,
      word.token = .symbol .slash → behind = [] ∨ Filler.StartWithBlank behind) :
    tokenize (Spaced.text behind words) = .ok (Spaced.places 0 words) :=
  tokenize_eq_ok_iff.mpr (Spaced.scans wellFormed apart last 0)

example : tokenize "/ //\n" = .ok [⟨.symbol .slash, 0, 1⟩] ∧ tokenize "///\n" = .ok [] := by
  decide +kernel

/-- A slash before a comment, digits before points, and quotes and slashes in comments and strings. -/
theorem tokenize_written_of_comment :
    tokenize "// a \"\n/\u3000// + \"\n\"// b\n\" 1\uFEFF.. 2.5//\n" = .ok
      [⟨.symbol .slash, 7, 8⟩, ⟨.string "// b\n", 18, 25⟩, ⟨.int "1", 26, 27⟩,
        ⟨.symbol .dotDot, 30, 32⟩, ⟨.float "2.5", 33, 36⟩] := by
  refine tokenize_written
    [⟨[.comment " a \"" (by decide)], .symbol .slash⟩,
      ⟨[.blank '\u3000' (by decide), .comment " + \"" (by decide)], .string "// b\n"⟩,
      ⟨[.blank ' ' (by decide)], .int "1"⟩,
      ⟨[.blank '\uFEFF' (by decide)], .symbol .dotDot⟩,
      ⟨[.blank ' ' (by decide)], .float "2.5"⟩]
    [.comment "" (by decide)] ?_ ?_ ?_
  · simp only [List.forall_mem_cons]
    have string : '"' ∉ "// b\n".toList := by decide
    have float : (Token.float "2.5").WellFormed :=
      ⟨['2'], ['5'], rfl, by decide, by decide, List.all_eq_true.mp (by decide)⟩
    have int : (Token.int "1").WellFormed := ⟨by decide, List.all_eq_true.mp (by decide)⟩
    exact ⟨trivial, string, int, trivial, float, List.forall_mem_nil _⟩
  · simp only [List.tail_cons, List.forall_mem_cons]
    exact ⟨⟨_, _, _, rfl⟩, ⟨_, _, _, rfl⟩, ⟨_, _, _, rfl⟩, ⟨_, _, _, rfl⟩, List.forall_mem_nil _⟩
  · rintro _ ⟨⟩ ⟨⟩

end ContractSyntax
