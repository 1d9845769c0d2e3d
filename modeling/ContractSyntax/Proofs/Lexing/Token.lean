/-
**Which tokens a text can hold, and where they end.**

A token that was taken from a text has the shape of its kind. Taken from its own text with anything
after it that does not go on with it, it comes out again.

* `Token.wellFormed_of_take?`: the shape of a token that is taken;
* `Token.take?_text`: a token of that shape is taken from its own text.
-/

import ContractSyntax.Token.Lexer

namespace ContractSyntax

/-! ### Longest runs -/

section Runs

variable {kind : Char → Bool} {run rest : List Char}

theorem of_mem_takeWhile {character : Char} (member : character ∈ rest.takeWhile kind) :
    kind character = true :=
  List.all_eq_true.mp List.all_takeWhile character member

theorem forall_bne_iff {barred : Char} :
    (∀ character ∈ run, (character != barred) = true) ↔ barred ∉ run := by
  simp only [bne_iff_ne, ne_eq, List.forall_mem_ne']

/-- A run of one kind ends where another kind begins. -/
theorem takeWhile_run (within : ∀ character ∈ run, kind character = true)
    (stops : ∀ character, rest.head? = some character → kind character = false) :
    (run ++ rest).takeWhile kind = run := by
  rw [List.takeWhile_append_of_pos within]
  cases rest with
  | nil => exact List.append_nil run
  | cons first after => rw [List.takeWhile_cons_of_neg (by simp [stops first rfl]), List.append_nil]

theorem dropWhile_run (within : ∀ character ∈ run, kind character = true)
    (stops : ∀ character, rest.head? = some character → kind character = false) :
    (run ++ rest).dropWhile kind = rest := by
  rw [List.dropWhile_append_of_pos within]
  cases rest with
  | nil => rfl
  | cons first after => rw [List.dropWhile_cons_of_neg (by simp [stops first rfl])]

end Runs

/-! ### Shapes -/

/-- Whether a text is a word: a letter or underscore, then any of those and digits. -/
def IsWord (text : String) : Prop :=
  ∃ first rest, text.toList = first :: rest ∧ startsWord first = true ∧
    ∀ character ∈ rest, continuesWord character = true

/-- Whether a token has the shape of its kind. -/
def Token.WellFormed : Token → Prop
  | int digits => digits.toList ≠ [] ∧ ∀ digit ∈ digits.toList, digit.isDigit = true
  | float digits =>
    ∃ whole places, digits.toList = whole ++ '.' :: places ∧ whole ≠ [] ∧ places ≠ [] ∧
      ∀ digit ∈ whole ++ places, digit.isDigit = true
  | string content => '"' ∉ content.toList
  | ident name => IsWord name ∧ Keyword.ofText? name = none
  | keyword _ => True
  | symbol _ => True

theorem Keyword.isWord (word : Keyword) : IsWord word.text := by
  unfold IsWord
  cases word <;> exact ⟨_, _, rfl, by decide, List.all_eq_true.mp (by decide)⟩

theorem Token.wellFormed_ofWord {text : String} (word : IsWord text) : (ofWord text).WellFormed := by
  unfold ofWord
  split
  · trivial
  · next other => exact ⟨word, other⟩

theorem Token.wellFormed_takeNumber {first : Char} {rest : List Char} (digit : first.isDigit = true) :
    (takeNumber (first :: rest)).1.WellFormed := by
  have whole : (first :: rest).takeWhile Char.isDigit ≠ [] := by
    rw [List.takeWhile_cons_of_pos digit]
    exact List.cons_ne_nil _ _
  unfold takeNumber
  dsimp only
  split
  · split
    · next second after _ place =>
      refine ⟨_, _, String.toList_ofList, whole, ?_, fun character member => ?_⟩
      · rw [List.takeWhile_cons_of_pos place]
        exact List.cons_ne_nil _ _
      · rcases List.mem_append.mp member with member | member
        · exact of_mem_takeWhile member
        · exact of_mem_takeWhile member
    · refine ⟨by rwa [String.toList_ofList], ?_⟩
      rw [String.toList_ofList]
      exact fun character member => of_mem_takeWhile member
  · refine ⟨by rwa [String.toList_ofList], ?_⟩
    rw [String.toList_ofList]
    exact fun character member => of_mem_takeWhile member

/-- A token that is taken has the shape of its kind. -/
theorem Token.wellFormed_of_take? {characters rest : List Char} {token : Token}
    (taken : take? characters = some (token, rest)) : token.WellFormed := by
  cases characters with
  | nil => cases taken
  | cons first after =>
    simp only [take?] at taken
    split at taken
    · next letter =>
      cases taken
      refine wellFormed_ofWord ⟨first, after.takeWhile continuesWord, String.toList_ofList, letter, ?_⟩
      exact fun character member => of_mem_takeWhile member
    · split at taken
      · next digit =>
        have number : (takeNumber (first :: after)).1.WellFormed := wellFormed_takeNumber digit
        rwa [Option.some.inj taken] at number
      · split at taken
        · unfold takeString? at taken
          split at taken <;> cases taken
          intro member
          rw [String.toList_ofList] at member
          cases of_mem_takeWhile member
        · obtain ⟨⟨found, remaining⟩, _, equal⟩ := Option.map_eq_some_iff.mp taken
          cases equal
          trivial

/-! ### Where a token ends -/

/-- Whether a symbol becomes another one, or a comment, when a character follows it. -/
def Symbol.joins : Symbol → Char → Bool
  | dot, next => next == '.'
  | dotDot, next => next == '<' || next == '='
  | colon, next => next == ':'
  | minus, next => next == '>'
  | equal, next => next == '>' || next == '='
  | less, next | greater, next => next == '='
  | slash, next => next == '/'
  | _, _ => false

/-- Whether a token ends where a text begins. -/
def Token.Stops (token : Token) (rest : List Char) : Prop :=
  match token with
  | ident _ | keyword _ => ∀ next, rest.head? = some next → continuesWord next = false
  | int _ =>
    (∀ next, rest.head? = some next → next.isDigit = false) ∧
      ∀ next after, rest = '.' :: next :: after → next.isDigit = false
  | float _ => ∀ next, rest.head? = some next → next.isDigit = false
  | string _ => True
  | symbol sign => ∀ next, rest.head? = some next → sign.joins next = false

theorem Symbol.take?_text {symbol : Symbol} {rest : List Char}
    (stops : (Token.symbol symbol).Stops rest) :
    take? (symbol.text.toList ++ rest) = some (symbol, rest) := by
  cases rest with
  | nil => cases symbol <;> rfl
  | cons next after =>
    have other := stops next rfl
    cases symbol with
    | dot | dotDot | colon | minus | equal | less | greater =>
      simp only [joins, Bool.or_eq_false_iff, beq_eq_false_iff_ne] at other
      simp [text, take?, other]
    | _ => rfl

theorem Symbol.takeComment?_text {symbol : Symbol} {rest : List Char}
    (stops : (Token.symbol symbol).Stops rest) :
    takeComment? (symbol.text.toList ++ rest) = none := by
  cases symbol with
  | slash =>
    cases rest with
    | nil => rfl
    | cons next after =>
      have other := stops next rfl
      simp only [joins, beq_eq_false_iff_ne] at other
      simp [text, takeComment?, other]
  | _ => rfl

namespace Token

variable {rest : List Char}

theorem take?_word {text : String} (word : IsWord text)
    (stops : ∀ next, rest.head? = some next → continuesWord next = false) :
    take? (text.toList ++ rest) = some (ofWord text, rest) := by
  obtain ⟨first, others, spelled, letter, within⟩ := word
  rw [spelled, List.cons_append]
  simp only [take?, if_pos letter, takeWhile_run within stops, dropWhile_run within stops]
  rw [← spelled, String.ofList_toList]

/-- Where the characters that start a word lie. -/
theorem startsWord_eq (character : Char) :
    startsWord character =
      (decide ('A'.val ≤ character.val ∧ character.val ≤ 'Z'.val) ||
        decide ('a'.val ≤ character.val ∧ character.val ≤ 'z'.val) || character == '_') := by
  rw [Bool.decide_and ('a'.val ≤ character.val)]
  rfl

theorem startsWord_of_isDigit {digit : Char} (decimal : digit.isDigit = true) :
    startsWord digit = false := by
  have range := (Char.isDigit_iff_toNat.mp decimal).2
  have below (letter : Char) (above : '9'.toNat < letter.toNat) : ¬ letter.val ≤ digit.val := by
    rw [UInt32.le_iff_toNat_le]
    exact Nat.not_le.mpr (Nat.lt_of_le_of_lt range above)
  have upper : ¬ 65 ≤ digit.val := below 'A' (by decide)
  have lower : ¬ 97 ≤ digit.val := below 'a' (by decide)
  have other : digit ≠ '_' := by
    rintro rfl
    cases decimal
  simp [startsWord_eq, upper, lower, other]

theorem take?_number {digits : List Char} (some : digits ≠ [])
    (within : ∀ digit ∈ digits, digit.isDigit = true) :
    take? (digits ++ rest) = .some (takeNumber (digits ++ rest)) := by
  obtain ⟨first, others, rfl⟩ := List.exists_cons_of_ne_nil some
  have digit := within first List.mem_cons_self
  simp only [List.cons_append, take?, startsWord_of_isDigit digit, if_pos digit]
  rfl

theorem take?_int {digits : List Char} (some : digits ≠ [])
    (within : ∀ digit ∈ digits, digit.isDigit = true)
    (stops : (int (String.ofList digits)).Stops rest) :
    take? (digits ++ rest) = .some (int (String.ofList digits), rest) := by
  rw [take?_number some within, takeNumber]
  dsimp only
  rw [takeWhile_run within stops.1, dropWhile_run within stops.1]
  split
  · next second after => rw [if_neg (by simp [stops.2 second after rfl])]
  · rfl

theorem take?_float {whole places : List Char} (some : whole ≠ []) (some' : places ≠ [])
    (within : ∀ digit ∈ whole ++ places, digit.isDigit = true)
    (stops : ∀ next, rest.head? = .some next → next.isDigit = false) :
    take? (whole ++ '.' :: places ++ rest) =
      .some (float (String.ofList (whole ++ '.' :: places)), rest) := by
  have before := fun digit member => within digit (List.mem_append_left _ member)
  have behind := fun digit member => within digit (List.mem_append_right _ member)
  have point : ∀ next, ('.' :: (places ++ rest)).head? = .some next → next.isDigit = false := by
    rintro next ⟨⟩
    rfl
  rw [List.append_assoc, List.cons_append, take?_number some before, takeNumber]
  dsimp only
  rw [takeWhile_run before point, dropWhile_run before point]
  obtain ⟨second, after, rfl⟩ := List.exists_cons_of_ne_nil some'
  simp only [List.cons_append, if_pos (behind second List.mem_cons_self)]
  rw [← List.cons_append, takeWhile_run behind stops, dropWhile_run behind stops]

theorem take?_string {content : String} (within : '"' ∉ content.toList) :
    take? ((string content).text.toList ++ rest) = some (string content, rest) := by
  have other := forall_bne_iff.mpr within
  have closed : ∀ next, ('"' :: rest).head? = some next → (next != '"') = false := by
    rintro next ⟨⟩
    rfl
  have spelled : (string content).text.toList ++ rest = '"' :: (content.toList ++ '"' :: rest) := by
    simp [text, String.toList_append]
  rw [spelled]
  show takeString? (content.toList ++ '"' :: rest) = _
  simp only [takeString?, dropWhile_run other closed, takeWhile_run other closed,
    String.ofList_toList]

/-- How the text of a symbol begins. -/
theorem symbol_first (sign : Symbol) :
    ∃ first others, sign.text.toList = first :: others ∧ startsWord first = false ∧
      first.isDigit = false ∧ first ≠ '"' ∧ isBlank first = false := by
  cases sign <;> exact ⟨_, _, rfl, by decide, by decide, by decide, by decide⟩

theorem take?_symbol {sign : Symbol} (stops : (symbol sign).Stops rest) :
    take? (sign.text.toList ++ rest) = some (symbol sign, rest) := by
  have taken := Symbol.take?_text stops
  obtain ⟨first, others, spelled, word, digit, quote, _⟩ := symbol_first sign
  rw [spelled, List.cons_append] at taken ⊢
  simp only [take?, word, digit, if_neg quote, taken]
  rfl

/-- A token is taken from its own text, whatever follows it without going on with it. -/
theorem take?_text {token : Token} (wellFormed : token.WellFormed) (stops : token.Stops rest) :
    take? (token.text.toList ++ rest) = some (token, rest) := by
  cases token with
  | int digits =>
    have taken := take?_int wellFormed.1 wellFormed.2 (by rwa [String.ofList_toList])
    rwa [String.ofList_toList] at taken
  | float digits =>
    obtain ⟨whole, places, spelled, some, some', within⟩ := wellFormed
    have taken := take?_float some some' within stops
    rwa [← spelled, String.ofList_toList] at taken
  | string content => exact take?_string wellFormed
  | ident name =>
    obtain ⟨word, other⟩ := wellFormed
    have taken := take?_word word stops
    rwa [ofWord, other] at taken
  | keyword word =>
    have taken := take?_word word.isWord stops
    rwa [ofWord_text] at taken
  | symbol sign => exact take?_symbol stops

/-! ### What stands before a token -/

theorem isBlank_of_range {character : Char} (above : 32 < character.toNat)
    (below : character.toNat < 127) : isBlank character = false := by
  have other (point : Nat) (far : point ≤ 32 ∨ 127 ≤ point) : character.toNat ≠ point := by omega
  simp [isBlank, whiteSpace, byteOrderMark, other]

theorem range_of_startsWord {character : Char} (letter : startsWord character = true) :
    64 < character.toNat ∧ character.toNat < 123 := by
  have bounds (low high : Char) (within : low.val ≤ character.val ∧ character.val ≤ high.val) :
      low.toNat ≤ character.toNat ∧ character.toNat ≤ high.toNat :=
    ⟨UInt32.le_iff_toNat_le.mp within.1, UInt32.le_iff_toNat_le.mp within.2⟩
  simp only [startsWord_eq, Bool.or_eq_true, decide_eq_true_eq, beq_iff_eq] at letter
  rcases letter with (upper | lower) | rfl
  · have := bounds 'A' 'Z' upper
    exact ⟨Nat.lt_of_lt_of_le (by decide) this.1, Nat.lt_of_le_of_lt this.2 (by decide)⟩
  · have := bounds 'a' 'z' lower
    exact ⟨Nat.lt_of_lt_of_le (by decide) this.1, Nat.lt_of_le_of_lt this.2 (by decide)⟩
  · decide

theorem isBlank_of_startsWord {letter : Char} (starts : startsWord letter = true) :
    isBlank letter = false := by
  have range := range_of_startsWord starts
  exact isBlank_of_range (by omega) (by omega)

theorem isBlank_of_isDigit {digit : Char} (decimal : digit.isDigit = true) :
    isBlank digit = false := by
  have range := Char.isDigit_iff_toNat.mp decimal
  exact isBlank_of_range (Nat.lt_of_lt_of_le (by decide) range.1)
    (Nat.lt_of_le_of_lt range.2 (by decide))

/-- No blank is part of a word. -/
theorem isBlank_of_continuesWord {character : Char} (part : continuesWord character = true) :
    isBlank character = false := by
  simp only [continuesWord, Char.isAlphanum, Bool.or_eq_true] at part
  rcases part with (letter | digit) | underscore
  · exact isBlank_of_startsWord (Bool.or_eq_true_iff.mpr (.inl letter))
  · exact isBlank_of_isDigit digit
  · exact isBlank_of_startsWord (Bool.or_eq_true_iff.mpr (.inr underscore))

/-- A token begins with a character that is neither blank nor, but for a symbol, a slash. -/
theorem WellFormed.first {token : Token} (wellFormed : token.WellFormed) :
    ∃ first others, token.text.toList = first :: others ∧ isBlank first = false ∧
      (first = '/' → ∃ sign, token = symbol sign) := by
  have number {digits : List Char} {first : Char} {others : List Char}
      (spelled : digits = first :: others) (digit : first.isDigit = true) (kind : Prop) :
      ∃ first others, digits = first :: others ∧ isBlank first = false ∧ (first = '/' → kind) := by
    refine ⟨first, others, spelled, isBlank_of_isDigit digit, ?_⟩
    rintro rfl
    cases digit
  have word {text : String} (spelled : IsWord text) (kind : Prop) :
      ∃ first others, text.toList = first :: others ∧ isBlank first = false ∧
        (first = '/' → kind) := by
    obtain ⟨first, others, spelled, letter, _⟩ := spelled
    refine ⟨first, others, spelled, isBlank_of_startsWord letter, ?_⟩
    rintro rfl
    cases letter
  cases token with
  | int digits =>
    obtain ⟨first, others, spelled⟩ := List.exists_cons_of_ne_nil wellFormed.1
    exact number spelled (wellFormed.2 first (spelled ▸ List.mem_cons_self)) _
  | float digits =>
    obtain ⟨whole, places, spelled, some, _, within⟩ := wellFormed
    obtain ⟨first, others, rfl⟩ := List.exists_cons_of_ne_nil some
    exact number spelled (within first (by simp)) _
  | string content =>
    exact ⟨'"', content.toList ++ ['"'], by simp [text, String.toList_append], by decide, nofun⟩
  | ident name => exact word wellFormed.1 _
  | keyword spelled => exact word spelled.isWord _
  | symbol sign =>
    obtain ⟨first, others, spelled, _, _, _, blank⟩ := symbol_first sign
    exact ⟨first, others, spelled, blank, fun _ => ⟨sign, rfl⟩⟩

/-- No comment begins where a token does. -/
theorem takeComment?_text {token : Token} (wellFormed : token.WellFormed)
    (stops : token.Stops rest) : takeComment? (token.text.toList ++ rest) = none := by
  obtain ⟨first, others, spelled, _, slash⟩ := wellFormed.first
  by_cases same : first = '/'
  · obtain ⟨sign, rfl⟩ := slash same
    exact Symbol.takeComment?_text stops
  · rw [spelled, List.cons_append, takeComment?]
    rintro after equal
    injection equal with head
    exact absurd head same

end Token

end ContractSyntax
