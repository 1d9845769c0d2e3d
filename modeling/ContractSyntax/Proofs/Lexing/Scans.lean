/-
**What is written in a text.**

A token that was taken ends where what was left begins. So the scan can be told without how far ahead
it looks: some tokens are written with some characters, before others, if each has the shape of its
kind and ends where the rest begins, and the blanks and comments between them are left out. Every
text is written with tokens up to its end, or up to a place where the scan is stuck.

* `Scans`: the tokens that are written with some characters;
* `exists_scans`: which are written with every text, up to its end or to where the scan is stuck;
* `Scans.scan`, `scan_stuck`: which are what the scan finds, and how it ends;
* `tokenize_eq_ok_iff`: the tokens of a text are those that are written in it;
* `between_of_tokenize`, `wellFormed_of_tokenize`: they are in order and in the text, and each has the
  shape of its kind.
-/

import ContractSyntax.Proofs.Lexing.Places
import ContractSyntax.Proofs.Lexing.Token

namespace ContractSyntax

/-! ### Where a token that was taken ends -/

theorem Symbol.stops_of_take? {characters rest : List Char} {symbol : Symbol}
    (plain : takeComment? characters = none) (taken : Symbol.take? characters = some (symbol, rest)) :
    (Token.symbol symbol).Stops rest := by
  intro next head
  obtain ⟨after, rfl⟩ : ∃ after, rest = next :: after := by
    cases rest with
    | nil => cases head
    | cons first after =>
      cases head
      exact ⟨after, rfl⟩
  have spelled := Symbol.take?_eq taken
  subst spelled
  refine Bool.eq_false_iff.mpr fun joined => ?_
  cases symbol with
  | slash =>
    simp only [joins, beq_iff_eq] at joined
    subst joined
    cases plain
  | dot =>
    simp only [joins, beq_iff_eq] at joined
    subst joined
    change take? ('.' :: '.' :: after) = some (dot, '.' :: after) at taken
    unfold take? at taken
    split at taken
    any_goals cases taken
    next other _ => exact other after rfl
  | dotDot | colon | minus | equal | less | greater =>
    simp only [joins, Bool.or_eq_true, beq_iff_eq] at joined
    rcases joined with rfl | rfl <;> simp [text, take?] at taken
  | _ => cases joined

namespace Token

variable {characters rest : List Char}

/-- What follows the longest run of a kind does not begin with that kind. -/
theorem head_dropWhile {kind : Char → Bool} {next : Char}
    (head : (characters.dropWhile kind).head? = some next) : kind next = false := by
  have last := List.head?_dropWhile_not kind characters
  rwa [head] at last

theorem stops_takeNumber : (takeNumber characters).1.Stops (takeNumber characters).2 := by
  unfold takeNumber
  dsimp only
  split
  · next digit rest point =>
    split
    · exact fun next head => head_dropWhile head
    · next other =>
      have stops : ∀ next, ('.' :: digit :: rest).head? = some next → next.isDigit = false :=
        fun next head => head_dropWhile (point ▸ head)
      refine ⟨stops, fun next after same => ?_⟩
      cases same
      exact Bool.eq_false_iff.mpr other
  · next other =>
    refine ⟨fun next head => head_dropWhile head, fun next after same => ?_⟩
    exact absurd same (other next after)

/-- A token that was taken where no comment begins ends where what was left begins. -/
theorem stops_of_take? {token : Token} (plain : takeComment? characters = none)
    (taken : take? characters = some (token, rest)) : token.Stops rest := by
  cases characters with
  | nil => cases taken
  | cons first after =>
    simp only [take?] at taken
    split at taken
    · cases taken
      unfold ofWord
      split <;> exact fun next head => head_dropWhile head
    · split at taken
      · have stops : (takeNumber (first :: after)).1.Stops (takeNumber (first :: after)).2 :=
          stops_takeNumber
        rwa [Option.some.inj taken] at stops
      · split at taken
        · unfold takeString? at taken
          split at taken <;> cases taken
          trivial
        · obtain ⟨⟨found, remaining⟩, symbol, equal⟩ := Option.map_eq_some_iff.mp taken
          cases equal
          exact Symbol.stops_of_take? plain symbol

/-- A token ends where the first part of a text begins if it ends where the text does. -/
theorem Stops.of_append {token : Token} {text after : List Char}
    (stops : token.Stops (text ++ after)) : token.Stops text := by
  have head {next : Char} (begins : text.head? = some next) : (text ++ after).head? = some next := by
    rw [List.head?_append, begins]
    rfl
  cases token with
  | ident | keyword | float | symbol => exact fun next begins => stops next (head begins)
  | int =>
    refine ⟨fun next begins => stops.1 next (head begins), fun next more same => ?_⟩
    exact stops.2 next (more ++ after) (by rw [same]; rfl)
  | string => trivial

end Token

/-! ### One step of the scan -/

theorem scan_blank {first : Char} {rest : List Char} (blank : isBlank first = true) (offset : Nat)
    (found : List (Spanned Token)) :
    scan offset found (first :: rest) = scan (offset + first.utf8Size) found rest := by
  rw [scan, if_pos blank]

theorem scan_token {token : Token} {rest : List Char} (wellFormed : token.WellFormed)
    (stops : token.Stops rest) (offset : Nat) (found : List (Spanned Token)) :
    scan offset found (token.text.toList ++ rest) =
      scan (offset + token.text.utf8ByteSize)
        (⟨token, offset, offset + token.text.utf8ByteSize⟩ :: found) rest := by
  have comment := Token.takeComment?_text wellFormed stops
  have taken := Token.take?_text wellFormed stops
  obtain ⟨first, others, spelled, blank, _⟩ := wellFormed.first
  rw [spelled, List.cons_append] at comment taken ⊢
  rw [scan, if_neg (by simp [blank])]
  split
  · next some => cases comment.symm.trans some
  · split
    · next found some =>
      cases taken.symm.trans some
      rfl
    · next none => cases taken.symm.trans none

/-! ### The tokens that are written with some characters -/

/-- Whether characters from an offset on, with others behind them, are the texts of tokens, with
blanks and comments between them. -/
inductive Scans (behind : List Char) : Nat → List Char → Tokens → Prop
  | nil (offset : Nat) : Scans behind offset [] []
  | blank {offset : Nat} {first : Char} {rest : List Char} {tokens : Tokens}
      (blank : isBlank first = true)
      (continued : Scans behind (offset + first.utf8Size) rest tokens) :
      Scans behind offset (first :: rest) tokens
  | comment {offset : Nat} {comment rest : List Char} {tokens : Tokens}
      (taken : takeComment? (comment ++ (rest ++ behind)) = some (comment, rest ++ behind))
      (continued : Scans behind (offset + byteLength comment) rest tokens) :
      Scans behind offset (comment ++ rest) tokens
  | token {offset : Nat} {token : Token} {rest : List Char} {tokens : Tokens}
      (wellFormed : token.WellFormed) (stops : token.Stops (rest ++ behind))
      (continued : Scans behind (offset + token.text.utf8ByteSize) rest tokens) :
      Scans behind offset (token.text.toList ++ rest)
        (⟨token, offset, offset + token.text.utf8ByteSize⟩ :: tokens)

/-- Whether neither a blank nor a comment nor a token is at the head of a text that goes on. -/
def Stuck : List Char → Prop
  | [] => False
  | first :: rest =>
    isBlank first = false ∧ takeComment? (first :: rest) = none ∧ Token.take? (first :: rest) = none

/-- A text is written with tokens, to its end or to where none is. -/
theorem exists_scans (offset : Nat) (characters : List Char) :
    ∃ passed behind tokens, characters = passed ++ behind ∧ Scans behind offset passed tokens ∧
      (behind = [] ∨ Stuck behind) := by
  fun_induction scan offset [] characters with
  | case1 offset => exact ⟨[], [], [], rfl, .nil offset, .inl rfl⟩
  | case2 offset found first rest blank continued =>
    obtain ⟨passed, behind, tokens, rfl, scans, ended⟩ := continued
    exact ⟨first :: passed, behind, tokens, rfl, .blank blank scans, ended⟩
  | case3 offset found first rest blank comment after taken continued =>
    obtain ⟨passed, behind, tokens, rfl, scans, ended⟩ := continued
    have written := takeComment?_eq taken
    rw [written] at taken ⊢
    exact ⟨comment ++ passed, behind, tokens, (List.append_assoc _ _ _).symm, .comment taken scans,
      ended⟩
  | case4 offset found first rest blank plain token after taken stop continued =>
    obtain ⟨passed, behind, tokens, rfl, scans, ended⟩ := continued
    rw [Token.take?_eq taken]
    refine ⟨token.text.toList ++ passed, behind, ⟨token, offset, stop⟩ :: tokens,
      (List.append_assoc _ _ _).symm, ?_, ended⟩
    exact .token (Token.wellFormed_of_take? taken) (Token.stops_of_take? plain taken) scans
  | case5 offset found first rest blank plain untaken =>
    exact ⟨[], first :: rest, [], rfl, .nil offset,
      .inr ⟨Bool.eq_false_iff.mpr blank, plain, untaken⟩⟩

/-- A comment is two slashes and what follows them up to the end of the line. -/
theorem takeComment?_eq_some_iff {comment rest : List Char} :
    takeComment? (comment ++ rest) = some (comment, rest) ↔
      (∃ body, comment = '/' :: '/' :: body ∧ '\n' ∉ body) ∧
        ∀ next, rest.head? = some next → next = '\n' := by
  constructor
  · intro taken
    unfold takeComment? at taken
    split at taken
    · next more spelled =>
      obtain ⟨rfl, rfl⟩ := Prod.mk.inj (Option.some.inj taken)
      refine ⟨⟨_, rfl, fun member => ?_⟩, fun next head => ?_⟩
      · have other := of_mem_takeWhile member
        cases other
      · have last := Token.head_dropWhile head
        exact bne_eq_false_iff_eq.mp last
    · cases taken
  · rintro ⟨⟨body, rfl, within⟩, stops⟩
    have within := forall_bne_iff.mpr within
    have stops := fun next head => bne_eq_false_iff_eq.mpr (stops next head)
    simp only [List.cons_append, takeComment?, takeWhile_run within stops, dropWhile_run within stops]

theorem scan_comment {comment rest : List Char}
    (taken : takeComment? (comment ++ rest) = some (comment, rest)) (offset : Nat) (found : Tokens) :
    scan offset found (comment ++ rest) = scan (offset + byteLength comment) found rest := by
  obtain ⟨⟨body, spelled, _⟩, _⟩ := takeComment?_eq_some_iff.mp taken
  obtain ⟨more, spelled⟩ : ∃ more, comment ++ rest = '/' :: '/' :: more :=
    ⟨body ++ rest, by rw [spelled]; rfl⟩
  rw [spelled] at taken ⊢
  rw [scan, if_neg (by decide)]
  split
  · next some =>
    cases taken.symm.trans some
    rfl
  · next none => cases taken.symm.trans none

/-- A comment ends at the end of its line, whatever stands behind that. -/
theorem takeComment?_of_append {comment text after : List Char}
    (taken : takeComment? (comment ++ (text ++ after)) = .some (comment, text ++ after)) :
    takeComment? (comment ++ text) = .some (comment, text) := by
  obtain ⟨spelled, stops⟩ := takeComment?_eq_some_iff.mp taken
  refine takeComment?_eq_some_iff.mpr ⟨spelled, fun next head => stops next ?_⟩
  rw [List.head?_append, head]
  rfl

namespace Scans

variable {offset : Nat} {behind characters : List Char} {tokens : Tokens}

/-- A scan finds the tokens that are written, and goes on behind them. -/
theorem scan (scans : Scans behind offset characters tokens) (found : Tokens) :
    ContractSyntax.scan offset found (characters ++ behind) =
      ContractSyntax.scan (offset + byteLength characters) (tokens.reverse ++ found) behind := by
  induction scans generalizing found with
  | nil => rfl
  | blank blank _ continued =>
    rw [List.cons_append, scan_blank blank, continued, byteLength_cons, Nat.add_assoc]
  | comment taken _ continued =>
    rw [List.append_assoc, scan_comment taken, continued, byteLength_append, Nat.add_assoc]
  | token wellFormed stops _ continued =>
    rw [List.append_assoc, scan_token wellFormed stops, continued, byteLength_append,
      byteLength_toList, Nat.add_assoc, List.reverse_cons, List.append_assoc]
    rfl

/-- Without what stands behind. -/
theorem alone (scans : Scans behind offset characters tokens) : Scans [] offset characters tokens := by
  induction scans with
  | nil offset => exact .nil offset
  | blank blank _ continued => exact .blank blank continued
  | comment taken _ continued =>
    refine .comment ?_ continued
    rw [List.append_nil]
    exact takeComment?_of_append taken
  | token wellFormed stops _ continued =>
    refine .token wellFormed ?_ continued
    rw [List.append_nil]
    exact stops.of_append

/-- The tokens that are written have the shapes of their kinds. -/
theorem wellFormed (scans : Scans behind offset characters tokens) :
    ∀ place ∈ tokens, place.node.WellFormed := by
  induction scans with
  | nil => exact List.forall_mem_nil _
  | blank _ _ continued | comment _ _ continued => exact continued
  | token wellFormed _ _ continued => exact List.forall_mem_cons.mpr ⟨wellFormed, continued⟩

/-- The tokens that are written lie one after the other in what they are written with. -/
theorem between (scans : Scans behind offset characters tokens) :
    tokens.Between offset (offset + byteLength characters) := by
  induction scans with
  | nil offset => exact Nat.le_refl offset
  | blank _ _ continued =>
    rw [byteLength_cons, ← Nat.add_assoc]
    exact continued.mono (Nat.le_add_right _ _) (Nat.le_refl _)
  | comment _ _ continued =>
    rw [byteLength_append, ← Nat.add_assoc]
    exact continued.mono (Nat.le_add_right _ _) (Nat.le_refl _)
  | @token offset token _ _ wellFormed _ _ continued =>
    have some : 0 < token.text.utf8ByteSize := by
      obtain ⟨first, others, spelled, _⟩ := wellFormed.first
      rw [← byteLength_toList, spelled, byteLength_cons]
      exact Nat.add_pos_left first.utf8Size_pos _
    rw [byteLength_append, byteLength_toList, ← Nat.add_assoc]
    exact ⟨Nat.le_refl offset, Nat.lt_add_of_pos_right some, continued⟩

/-- The tokens that are written in a whole text are its tokens. -/
theorem tokenize_eq {source : String} (scans : Scans [] 0 source.toList tokens) :
    tokenize source = .ok tokens := by
  have scanned := scans.scan []
  rw [List.append_nil, List.append_nil, ContractSyntax.scan, List.reverse_reverse] at scanned
  exact scanned

end Scans

/-- A scan does not get past where neither a blank nor a comment nor a token is. -/
theorem scan_stuck {first : Char} {rest : List Char} (stuck : Stuck (first :: rest)) (offset : Nat)
    (found : Tokens) :
    scan offset found (first :: rest) =
      .error (if first = '"' then .unterminatedString offset (offset + byteLength (first :: rest))
        else .unexpectedCharacter first offset) := by
  obtain ⟨blank, plain, untaken⟩ := stuck
  rw [scan, if_neg (by simp [blank])]
  split
  · next some => cases plain.symm.trans some
  · split
    · next some => cases untaken.symm.trans some
    · rfl

/-- The tokens of a text are those that are written in it. -/
theorem tokenize_eq_ok_iff {source : String} {tokens : Tokens} :
    tokenize source = .ok tokens ↔ Scans [] 0 source.toList tokens := by
  refine ⟨fun lexed => ?_, Scans.tokenize_eq⟩
  obtain ⟨passed, behind, found, written, scans, ended⟩ := exists_scans 0 source.toList
  rw [tokenize, written, scans.scan] at lexed
  cases behind with
  | nil =>
    rw [scan, List.append_nil, List.reverse_reverse] at lexed
    cases lexed
    rwa [written, List.append_nil]
  | cons first after =>
    have stuck : Stuck (first :: after) := ended.resolve_left (List.cons_ne_nil _ _)
    rw [scan_stuck stuck] at lexed
    cases lexed

/-- The tokens of a text lie one after the other in it. -/
theorem between_of_tokenize {source : String} {places : Tokens}
    (lexed : tokenize source = .ok places) : places.Between 0 source.utf8ByteSize := by
  have between := (tokenize_eq_ok_iff.mp lexed).between
  rwa [byteLength_toList, Nat.zero_add] at between

/-- Every token of a text has the shape of its kind. -/
theorem wellFormed_of_tokenize {source : String} {places : Tokens}
    (lexed : tokenize source = .ok places) : ∀ place ∈ places, place.node.WellFormed :=
  (tokenize_eq_ok_iff.mp lexed).wellFormed

end ContractSyntax
