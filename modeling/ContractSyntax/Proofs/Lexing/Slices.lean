/-
**The tokens of a slice.**

A scan depends neither on where it starts nor, up to the end of a token, on what stands behind it. So
some of the tokens of a text that follow one another are the tokens of the slice from the first of
them to the last, as far back as the slice begins.

* `Scans.drop`, `Scans.take`: without what stands before a token or behind one;
* `tokenize_slice`: some tokens of a text are all those of their slice.
-/

import ContractSyntax.Proofs.Lexing.Scans
import ContractSyntax.Proofs.Places.Fitting
import ContractSyntax.Proofs.Relocation.Tree

namespace ContractSyntax

namespace Scans

variable {offset : Nat} {behind characters : List Char} {tokens : Tokens}

/-- Without what stands before a token. -/
theorem drop {before rest : Tokens} {place : Spanned Token}
    (scans : Scans behind offset characters (before ++ place :: rest)) :
    ∃ passed after, characters = passed ++ after ∧ offset + byteLength passed = place.span.start ∧
      Scans behind place.span.start after (place :: rest) := by
  generalize same : before ++ place :: rest = tokens at scans
  induction scans generalizing before with
  | nil => cases before <;> cases same
  | @blank offset first _ _ blank _ continued =>
    obtain ⟨passed, after, rfl, starts, scans⟩ := continued same
    exact ⟨first :: passed, after, rfl, by rw [← starts, byteLength_cons, Nat.add_assoc], scans⟩
  | @comment offset comment _ _ taken _ continued =>
    obtain ⟨passed, after, rfl, starts, scans⟩ := continued same
    exact ⟨comment ++ passed, after, (List.append_assoc _ _ _).symm,
      by rw [← starts, byteLength_append, Nat.add_assoc], scans⟩
  | @token offset token _ _ wellFormed stops continuing continued =>
    cases before with
    | nil =>
      cases same
      exact ⟨[], _, rfl, rfl, .token wellFormed stops continuing⟩
    | cons first before =>
      injection same with _ same
      obtain ⟨passed, after, rfl, starts, scans⟩ := continued same
      refine ⟨token.text.toList ++ passed, after, (List.append_assoc _ _ _).symm, ?_, scans⟩
      rw [← starts, byteLength_append, byteLength_toList, Nat.add_assoc]

/-- Up to the end of a token. -/
theorem take {others : Tokens} (some : tokens ≠ [])
    (scans : Scans behind offset characters (tokens ++ others)) :
    ∃ text after, characters = text ++ after ∧
      offset + byteLength text = Cursor.stopAfter offset tokens ∧
      Scans (after ++ behind) offset text tokens := by
  generalize same : tokens ++ others = all at scans
  induction scans generalizing tokens with
  | nil => exact absurd (List.append_eq_nil_iff.mp same).1 some
  | @blank offset first _ _ blank _ continued =>
    obtain ⟨text, after, rfl, stop, scans⟩ := continued some same
    refine ⟨first :: text, after, rfl, ?_, .blank blank scans⟩
    rw [byteLength_cons, ← Nat.add_assoc, stop, Cursor.stopAfter_eq some]
  | @comment offset comment _ _ taken _ continued =>
    obtain ⟨text, after, rfl, stop, scans⟩ := continued some same
    rw [List.append_assoc] at taken
    refine ⟨comment ++ text, after, (List.append_assoc _ _ _).symm, ?_, .comment taken scans⟩
    rw [byteLength_append, ← Nat.add_assoc, stop, Cursor.stopAfter_eq some]
  | @token offset token rest _ wellFormed stops _ continued =>
    obtain ⟨place, tokens, rfl⟩ := List.exists_cons_of_ne_nil some
    injection same with first same
    subst first
    by_cases last : tokens = []
    · subst last
      refine ⟨token.text.toList ++ [], rest, by rw [List.append_nil], ?_,
        .token wellFormed stops (.nil _)⟩
      rw [List.append_nil, byteLength_toList]
      rfl
    · obtain ⟨text, after, rfl, stop, scans⟩ := continued last same
      rw [List.append_assoc] at stops
      refine ⟨token.text.toList ++ text, after, (List.append_assoc _ _ _).symm, ?_,
        .token wellFormed stops scans⟩
      rw [byteLength_append, byteLength_toList, ← Nat.add_assoc, stop]
      rfl

/-- As far back as one likes. -/
theorem back {amount : Nat} (scans : Scans behind (offset + amount) characters tokens) :
    ∃ places, Scans behind offset characters places ∧ relocate (.forward amount) places = tokens := by
  generalize same : offset + amount = start at scans
  induction scans generalizing offset with
  | nil => exact ⟨[], .nil offset, rfl⟩
  | blank blank _ continued =>
    obtain ⟨places, scans, moved⟩ := continued (by rw [← same, Nat.add_right_comm])
    exact ⟨places, .blank blank scans, moved⟩
  | comment taken _ continued =>
    obtain ⟨places, scans, moved⟩ := continued (by rw [← same, Nat.add_right_comm])
    exact ⟨places, .comment taken scans, moved⟩
  | @token _ token _ _ wellFormed stops _ continued =>
    obtain ⟨places, scans, moved⟩ := continued (by rw [← same, Nat.add_right_comm])
    refine ⟨_, .token wellFormed stops scans, ?_⟩
    rw [relocate_cons, moved, ← same, Nat.add_right_comm]
    rfl

end Scans

/-- Some tokens of a text that follow one another are the tokens of their slice. -/
theorem tokenize_slice {source : String} {places middle : Tokens} {span : Span}
    (lexed : tokenize source = .ok places) (part : middle <:+: places) (some : middle ≠ [])
    (spans : Spans middle span) :
    ∃ text tokens, span.Cuts source text ∧ tokenize text = .ok tokens ∧
      relocate (.forward span.start) tokens = middle := by
  obtain ⟨before, behind, rfl⟩ := part
  obtain ⟨high, between, _⟩ := Tokens.between_append.mp (between_of_tokenize lexed)
  obtain ⟨low, _, between⟩ := Tokens.between_append.mp between
  obtain ⟨place, rest, rfl⟩ := List.exists_cons_of_ne_nil some
  obtain ⟨starts, stops⟩ := spans.ends between
  have scans := tokenize_eq_ok_iff.mp lexed
  rw [List.append_assoc] at scans
  obtain ⟨passed, after, split, start, scans⟩ := scans.drop
  obtain ⟨text, after, rfl, stop, scans⟩ := scans.take some
  replace scans := scans.alone
  rw [← starts] at start stop scans
  rw [Cursor.stopAfter_eq some _ low, ← stops] at stop
  rw [← Nat.zero_add span.start] at scans
  obtain ⟨tokens, scans, moved⟩ := scans.back
  refine ⟨String.ofList text, tokens, Span.cuts_iff.mpr ⟨passed, after, ?_, ?_, ?_⟩, ?_, moved⟩
  · rw [split, String.toList_ofList, List.append_assoc]
  · rw [← start, Nat.zero_add]
  · rw [String.toList_ofList, stop]
  · rw [tokenize_eq_ok_iff, String.toList_ofList]
    exact scans

end ContractSyntax
