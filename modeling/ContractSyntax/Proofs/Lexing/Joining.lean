/-
**Texts joined by a newline.**

A token ends where a blank stands, and a comment ends with its line. So neither goes on behind a
newline, even if the text before it ends in the middle of a comment, and the scan of what stands
behind begins anew.

* `Scans.before_newline`, `Scans.append`: what is written before a newline, and behind it;
* `tokenize_join`: the tokens of one text, then those of the other, moved behind the newline.
-/

import ContractSyntax.Proofs.Lexing.Segment
import ContractSyntax.Proofs.Lexing.Slices

namespace ContractSyntax

/-- A token that ends where a text begins still does if a blank follows the text. -/
theorem Token.Stops.append_blank {token : Token} {rest : List Char} (stops : token.Stops rest)
    {blank : Char} (isBlank : isBlank blank = true) (after : List Char) :
    token.Stops (rest ++ blank :: after) := by
  cases rest with
  | nil => exact Segment.stops_of_blank token isBlank after
  | cons first rest =>
    cases token with
    | ident | keyword | float | symbol => exact fun next head => stops next head
    | string => trivial
    | int =>
      refine ⟨fun next head => stops.1 next head, fun next others same => ?_⟩
      cases rest with
      | cons _ rest =>
        cases same
        exact stops.2 next rest rfl
      | nil =>
        cases same
        refine Bool.eq_false_iff.mpr fun digit => ?_
        cases isBlank.symm.trans (Token.isBlank_of_isDigit digit)

/-- A comment that ends where a text begins still does if a newline follows the text. -/
theorem takeComment?_append_newline {comment rest : List Char}
    (taken : takeComment? (comment ++ rest) = some (comment, rest)) (after : List Char) :
    takeComment? (comment ++ (rest ++ '\n' :: after)) = some (comment, rest ++ '\n' :: after) := by
  obtain ⟨spelled, stops⟩ := takeComment?_eq_some_iff.mp taken
  refine takeComment?_eq_some_iff.mpr ⟨spelled, fun next head => ?_⟩
  cases rest with
  | nil =>
    cases head
    rfl
  | cons first rest => exact stops next head

namespace Scans

variable {offset : Nat} {behind characters text : List Char} {tokens others : Tokens}

/-- As far forward as one likes. -/
theorem forward (scans : Scans behind offset characters tokens) (amount : Nat) :
    Scans behind (offset + amount) characters (relocate (.forward amount) tokens) := by
  induction scans with
  | nil offset => exact .nil _
  | blank blank _ continued => exact .blank blank (Nat.add_right_comm _ _ _ ▸ continued)
  | comment taken _ continued => exact .comment taken (Nat.add_right_comm _ _ _ ▸ continued)
  | token wellFormed stops _ continued =>
    rw [Nat.add_right_comm] at continued
    have here := Scans.token wellFormed stops continued
    rw [Nat.add_right_comm] at here
    exact here

/-- With a newline behind, and anything behind that. -/
theorem before_newline (scans : Scans [] offset characters tokens) (after : List Char) :
    Scans ('\n' :: after) offset characters tokens := by
  induction scans with
  | nil offset => exact .nil offset
  | blank blank _ continued => exact .blank blank continued
  | comment taken _ continued =>
    rw [List.append_nil] at taken
    exact .comment (takeComment?_append_newline taken after) continued
  | token wellFormed stops _ continued =>
    rw [List.append_nil] at stops
    exact .token wellFormed (stops.append_blank (by decide) after) continued

/-- What is written in two texts is written in the one that they make up. -/
theorem append (first : Scans (text ++ behind) offset characters tokens)
    (second : Scans behind (offset + byteLength characters) text others) :
    Scans behind offset (characters ++ text) (tokens ++ others) := by
  induction first with
  | nil => exact second
  | blank blank _ continued =>
    rw [byteLength_cons, ← Nat.add_assoc] at second
    exact .blank blank (continued second)
  | @comment _ _ rest _ taken _ continued =>
    rw [byteLength_append, ← Nat.add_assoc] at second
    rw [← List.append_assoc rest] at taken
    rw [List.append_assoc]
    exact .comment taken (continued second)
  | token wellFormed stops _ continued =>
    rw [byteLength_append, byteLength_toList, ← Nat.add_assoc] at second
    rw [← List.append_assoc] at stops
    rw [List.append_assoc]
    exact .token wellFormed stops (continued second)

end Scans

/-- The tokens of a text, then those of another behind a newline. -/
theorem tokenize_join {source other : String} {tokens others : Tokens}
    (lexed : tokenize source = .ok tokens) (lexed' : tokenize other = .ok others) :
    tokenize (source ++ "\n" ++ other) =
      .ok (tokens ++ relocate (.forward (source.utf8ByteSize + 1)) others) := by
  rw [tokenize_eq_ok_iff] at lexed lexed' ⊢
  have joined : (source ++ "\n" ++ other).toList = source.toList ++ '\n' :: other.toList := by
    simp [String.toList_append]
  rw [joined]
  refine Scans.append ?_ (.blank (by decide) ?_)
  · rw [List.append_nil]
    exact lexed.before_newline _
  · rw [byteLength_toList, Nat.add_assoc]
    exact lexed'.forward _

end ContractSyntax
