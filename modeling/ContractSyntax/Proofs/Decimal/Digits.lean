/-
**Numbers are read back from their digits.**

* `readInt64?_toString`, `readUInt64?_toString`: for whole numbers;
* `readBinary64?_sourceDigits`: for finite numbers without a sign;
* `sourceDigits_eq`: a finite number is written as digits around a point, some on either side.
-/

import ContractSyntax.Decimal.Layout
import ContractSyntax.Decimal.Reading
import ContractSyntax.Proofs.Decimal.Rounding

namespace ContractSyntax

/-! ### Whole numbers -/

theorem digitsValue_eq (digits : List Char) : digitsValue digits = Nat.ofDigitChars 10 digits 0 :=
  rfl

@[simp] theorem digitsValue_toDigits (value : Nat) : digitsValue (Nat.toDigits 10 value) = value :=
  Nat.ofDigitChars_ten_toDigits

/-- The digits that come first count by the power of ten of those that follow. -/
theorem digitsValue_append_list (first second : List Char) :
    digitsValue (first ++ second) = 10 ^ second.length * digitsValue first + digitsValue second := by
  simp only [digitsValue_eq, Nat.ofDigitChars_append]
  exact Nat.ofDigitChars_eq_ofDigitChars_zero

@[simp] theorem digitsValue_zeros (count : Nat) : digitsValue (zeros count) = 0 := by
  rw [digitsValue_eq, zeros, Nat.ofDigitChars_replicate_zero, Nat.mul_zero]

@[simp] theorem length_zeros (count : Nat) : (zeros count).length = count :=
  List.length_replicate

theorem digitsValue_toString (value : Nat) : digitsValue (toString value).toList = value := by
  rw [Nat.toString_eq_ofList_toDigits, String.toList_ofList, digitsValue_toDigits]

theorem readInt64?_toString {value : Nat} (small : value < int64Bound) :
    readInt64? (toString value) = some (Int64.ofNat value) := by
  unfold readInt64?
  simp only [digitsValue_toString, if_pos small]

theorem readUInt64?_toString (length : UInt64) :
    readUInt64? (toString length.toNat) = some length := by
  unfold readUInt64?
  simp only [digitsValue_toString, if_pos length.toNat_lt_size, UInt64.ofNat_toNat]

/-- Below the bound, a whole number is its own value. -/
theorem toInt_ofNat {value : Nat} (small : value < int64Bound) :
    (Int64.ofNat value).toInt = value :=
  Int64.toInt_ofNat_of_lt small

/-! ### Numbers with a point -/

/-- Digits on either side of a point, one at least, that stand for a number. -/
structure PointDigits (whole places : List Char) (number : Binary64) : Prop where
  digits : ∀ digit ∈ whole ++ places, digit.isDigit = true
  some_whole : whole ≠ []
  some_places : places ≠ []
  value : Binary64.ofRatio (digitsValue (whole ++ places)) (10 ^ places.length) = number

theorem isDigit_of_mem_zeros {count : Nat} {digit : Char} (member : digit ∈ zeros count) :
    digit.isDigit = true := by
  obtain rfl := (List.mem_replicate.mp member).2
  rfl

theorem isDigit_of_mem_toDigits {value : Nat} {digit : Char}
    (member : digit ∈ Nat.toDigits 10 value) : digit.isDigit = true :=
  Nat.isDigit_of_mem_toDigits (by decide) (by decide) member

/-- The digits of a whole number with zeros after them, and a zero behind the point. -/
theorem PointDigits.shifted (digits power : Nat) :
    PointDigits (Nat.toDigits 10 digits ++ zeros power) ['0']
      (Binary64.ofDecimal ⟨digits, .ofNat power⟩) where
  digits := by
    intro digit member
    rcases List.mem_append.mp member with member | member
    · rcases List.mem_append.mp member with member | member
      · exact isDigit_of_mem_toDigits member
      · exact isDigit_of_mem_zeros member
    · obtain rfl := List.mem_singleton.mp member
      rfl
  some_whole := List.append_ne_nil_of_left_ne_nil Nat.toDigits_ne_nil _
  some_places := nofun
  value := by
    have tens : digitsValue (Nat.toDigits 10 digits ++ zeros power ++ ['0']) =
        digits * 10 ^ power * 10 := by
      rw [digitsValue_append_list, digitsValue_append_list, digitsValue_toDigits,
        digitsValue_zeros, length_zeros]
      show 10 ^ 1 * (10 ^ power * digits + 0) + 0 = _
      rw [Nat.add_zero, Nat.add_zero, Nat.pow_one, Nat.mul_comm, Nat.mul_comm digits]
    rw [tens, Binary64.ofDecimal_ofNat]
    exact Binary64.ofRatio_mul_right _ 1 (by decide)

/-- Digits with a point put before the last of them. -/
theorem PointDigits.parted {characters : List Char} {count : Nat}
    (digits : ∀ digit ∈ characters, digit.isDigit = true) (some : 0 < count)
    (long : count < characters.length) :
    PointDigits (characters.take (characters.length - count))
      (characters.drop (characters.length - count))
      (Binary64.ofRatio (digitsValue characters) (10 ^ count)) := by
  have length : (characters.drop (characters.length - count)).length = count := by
    rw [List.length_drop, Nat.sub_sub_self (Nat.le_of_lt long)]
  refine ⟨?_, ?_, ?_, ?_⟩
  · rwa [List.take_append_drop]
  · rw [← List.length_pos_iff, List.length_take]
    omega
  · rwa [← List.length_pos_iff, length]
  · rw [List.take_append_drop, length]

/-- A decimal is written with the digits that stand for it. -/
theorem Decimal.positional_eq (decimal : Decimal) :
    ∃ whole places, decimal.positional = whole ++ '.' :: places ∧
      PointDigits whole places (Binary64.ofDecimal decimal) := by
  obtain ⟨digits, exponent⟩ := decimal
  cases exponent with
  | ofNat power => exact ⟨_, _, rfl, .shifted digits power⟩
  | negSucc power =>
    generalize padded : zeros (power + 1 + 1 - (Nat.toDigits 10 digits).length) ++
      Nat.toDigits 10 digits = characters
    have long : power + 1 < characters.length := by
      rw [← padded, List.length_append, length_zeros]
      omega
    have decimals : ∀ digit ∈ characters, digit.isDigit = true := by
      intro digit member
      rw [← padded] at member
      rcases List.mem_append.mp member with member | member
      · exact isDigit_of_mem_zeros member
      · exact isDigit_of_mem_toDigits member
    have value : digitsValue characters = digits := by
      rw [← padded, digitsValue_append_list, digitsValue_zeros, digitsValue_toDigits, Nat.mul_zero,
        Nat.zero_add]
    have pointed := PointDigits.parted decimals (Nat.succ_pos power) long
    rw [value, ← Binary64.ofDecimal_negSucc] at pointed
    refine ⟨_, _, ?_, pointed⟩
    rw [← padded]
    rfl

theorem ne_point_of_isDigit {digit : Char} (decimal : digit.isDigit = true) :
    (digit != '.') = true := by
  rw [bne_iff_ne]
  rintro rfl
  cases decimal

/-- Digits around a point are read as the number they stand for. -/
theorem PointDigits.read {whole places : List Char} {number : Binary64}
    (pointed : PointDigits whole places number) (finite : number.isFinite = true) :
    readBinary64? (String.ofList (whole ++ '.' :: places)) = some number := by
  have other : ∀ digit ∈ whole, (digit != '.') = true := fun digit member =>
    ne_point_of_isDigit (pointed.digits digit (List.mem_append_left _ member))
  have before : (whole ++ '.' :: places).takeWhile (· != '.') = whole := by
    rw [List.takeWhile_append_of_pos other, List.takeWhile_cons_of_neg (by decide), List.append_nil]
  have after : (whole ++ '.' :: places).dropWhile (· != '.') = '.' :: places := by
    rw [List.dropWhile_append_of_pos other, List.dropWhile_cons_of_neg (by decide)]
  unfold readBinary64?
  simp only [String.toList_ofList, before, after, List.drop_succ_cons, List.drop_zero]
  rw [show Nat.pow 10 places.length = 10 ^ places.length from rfl, pointed.value, if_pos finite]

namespace Binary64

/-- A finite number is written as digits around a point, some on either side. -/
theorem sourceDigits_eq {number : Binary64} (finite : number.isFinite = true)
    (positive : number.isNegative = false) :
    ∃ whole places, number.sourceDigits = String.ofList (whole ++ '.' :: places) ∧
      PointDigits whole places number := by
  have bounded : number.magnitude < infinity := of_decide_eq_true finite
  have defined : number.isUndefined = false := decide_eq_false (Nat.lt_asymm bounded)
  obtain ⟨whole, places, written, pointed⟩ := (number.shortest .up).positional_eq
  refine ⟨whole, places, ?_, ?_⟩
  · simp only [sourceDigits, defined, finite, written]
    rfl
  · have nearest : ofDecimal (number.shortest .up) = number := by
      have unsigned : (ofDecimal (number.shortest .up)).isNegative = false := by
        unfold ofDecimal
        split <;> exact isNegative_ofRatio _ _
      rw [← ofMagnitude_magnitude unsigned, magnitude_ofDecimal_shortest .up finite,
        ofMagnitude_magnitude positive]
    exact nearest ▸ pointed

end Binary64

/-- A finite number without a sign is read back from its digits. -/
theorem readBinary64?_sourceDigits {number : Binary64} (finite : number.isFinite = true)
    (positive : number.isNegative = false) :
    readBinary64? number.sourceDigits = some number := by
  obtain ⟨whole, places, written, pointed⟩ := Binary64.sourceDigits_eq finite positive
  rw [written]
  exact pointed.read finite

/-- What is read is finite and has no sign. -/
theorem finite_of_readBinary64? {digits : String} {number : Binary64}
    (read : readBinary64? digits = some number) :
    number.isFinite = true ∧ number.isNegative = false := by
  unfold readBinary64? at read
  dsimp only at read
  split at read
  · next finite =>
    obtain rfl := Option.some.inj read
    exact ⟨finite, Binary64.isNegative_ofRatio _ _⟩
  · cases read

end ContractSyntax
