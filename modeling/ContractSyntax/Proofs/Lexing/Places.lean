/-
**Places in a text.**

Offsets count bytes, so a text stands in another where the bytes of what is before it end, and it
stands there in one way only. Tokens lie one after the other between two offsets if none is empty
and each begins where the one before has ended, or behind.

* `Tokens.between_append`: rows of tokens can be taken apart;
* `Span.cuts_iff`, `append_inj_of_byteLength`: what stands in a text at a span.
-/

import ContractSyntax.Proofs.Derivation.Basic
import ContractSyntax.Token.Lexer

namespace ContractSyntax

/-- Whether tokens lie one after the other between two offsets, and none of them is empty. -/
def Tokens.Between : Nat → Nat → Tokens → Prop
  | low, high, [] => low ≤ high
  | low, high, place :: rest =>
    low ≤ place.span.start ∧ place.span.start < place.span.stop ∧
      Between place.span.stop high rest

namespace Tokens.Between

variable {low middle high : Nat} {tokens others : Tokens}

theorem le (between : Between low high tokens) : low ≤ high := by
  induction tokens generalizing low with
  | nil => exact between
  | cons place rest continued =>
    obtain ⟨start, some, between⟩ := between
    exact Nat.le_trans start (Nat.le_trans (Nat.le_of_lt some) (continued between))

theorem mono {lower higher : Nat} (between : Between low high tokens) (le : lower ≤ low)
    (le' : high ≤ higher) : Between lower higher tokens := by
  induction tokens generalizing lower low with
  | nil => exact Nat.le_trans le (Nat.le_trans between le')
  | cons place rest continued =>
    obtain ⟨start, some, between⟩ := between
    exact ⟨Nat.le_trans le start, some, continued between (Nat.le_refl _)⟩

/-- Tokens lie between the beginning of the first and the end of the last. -/
theorem tight (between : Between low high tokens) :
    Between low (Cursor.stopAfter low tokens) tokens ∧ Cursor.stopAfter low tokens ≤ high := by
  induction tokens generalizing low with
  | nil => exact ⟨Nat.le_refl _, between⟩
  | cons place rest continued =>
    obtain ⟨start, some, between⟩ := between
    obtain ⟨tight, stop⟩ := continued between
    exact ⟨⟨start, some, tight⟩, stop⟩

end Tokens.Between

/-- A row of tokens lies between two offsets if its parts meet at one between them. -/
theorem Tokens.between_append {low high : Nat} {first second : Tokens} :
    Between low high (first ++ second) ↔
      ∃ middle, Between low middle first ∧ Between middle high second := by
  induction first generalizing low with
  | nil =>
    refine ⟨fun between => ⟨low, Nat.le_refl low, between⟩, ?_⟩
    rintro ⟨middle, le, between⟩
    exact between.mono le (Nat.le_refl _)
  | cons place rest continued =>
    simp only [List.cons_append, Between, continued]
    constructor
    · rintro ⟨start, some, middle, before, after⟩
      exact ⟨middle, ⟨start, some, before⟩, after⟩
    · rintro ⟨middle, ⟨start, some, before⟩, after⟩
      exact ⟨start, some, middle, before, after⟩

/-! ### Lengths -/

theorem byteLength_eq (characters : List Char) :
    byteLength characters = (String.ofList characters).utf8ByteSize := by
  have onto (length : Nat) :
      characters.foldl (fun length character => length + character.utf8Size) length =
        length + (String.ofList characters).utf8ByteSize := by
    induction characters generalizing length with
    | nil => rfl
    | cons first rest continued =>
      rw [List.foldl_cons, continued, String.ofList_cons, String.utf8ByteSize_append,
        String.utf8ByteSize_singleton, Nat.add_assoc]
  rw [byteLength, onto, Nat.zero_add]

theorem byteLength_append (first second : List Char) :
    byteLength (first ++ second) = byteLength first + byteLength second := by
  rw [byteLength_eq, byteLength_eq, byteLength_eq, String.ofList_append,
    String.utf8ByteSize_append]

theorem byteLength_cons (first : Char) (rest : List Char) :
    byteLength (first :: rest) = first.utf8Size + byteLength rest := by
  have single : byteLength [first] = first.utf8Size := Nat.zero_add _
  rw [← single, ← byteLength_append]
  rfl

theorem byteLength_toList (text : String) : byteLength text.toList = text.utf8ByteSize := by
  rw [byteLength_eq, String.ofList_toList]

/-! ### Parts of a text -/

/-- Whether a text stands in a source at a span, in bytes. -/
def Span.Cuts (span : Span) (source text : String) : Prop :=
  ∃ before after, source = before ++ text ++ after ∧ before.utf8ByteSize = span.start ∧
    span.start + text.utf8ByteSize = span.stop

/-- The same, by the characters of both. -/
theorem Span.cuts_iff {span : Span} {source text : String} :
    span.Cuts source text ↔
      ∃ before after, source.toList = before ++ text.toList ++ after ∧
        byteLength before = span.start ∧ span.start + byteLength text.toList = span.stop := by
  constructor
  · rintro ⟨before, after, rfl, start, stop⟩
    refine ⟨before.toList, after.toList, by simp only [String.toList_append], ?_, ?_⟩
    · rw [byteLength_toList, start]
    · rw [byteLength_toList, stop]
  · rintro ⟨before, after, written, start, stop⟩
    refine ⟨String.ofList before, String.ofList after, ?_, ?_, ?_⟩
    · rw [← String.toList_inj, written]
      simp only [String.toList_append, String.toList_ofList]
    · rw [← byteLength_eq, start]
    · rw [← byteLength_toList, stop]

/-- A text has one first part of a length. -/
theorem append_inj_of_byteLength {first first' second second' : List Char}
    (same : first ++ second = first' ++ second') (length : byteLength first = byteLength first') :
    first = first' ∧ second = second' := by
  induction first generalizing first' with
  | nil =>
    cases first' with
    | nil => exact ⟨rfl, same⟩
    | cons head rest =>
      have some := head.utf8Size_pos
      rw [byteLength_cons] at length
      exact absurd length (Nat.ne_of_lt (Nat.add_pos_left some _))
  | cons head rest continued =>
    cases first' with
    | nil =>
      have some := head.utf8Size_pos
      rw [byteLength_cons] at length
      exact absurd length (Nat.ne_of_gt (Nat.add_pos_left some _))
    | cons head' rest' =>
      injection same with begins same
      subst begins
      rw [byteLength_cons, byteLength_cons] at length
      obtain ⟨rests, seconds⟩ := continued same (Nat.add_left_cancel length)
      exact ⟨congrArg _ rests, seconds⟩

end ContractSyntax
