/-
**Whole numbers are judged by their value.**

A whole number is written with any number of digits, among them zeros in front. What is read of it is its
value by places, if that is in the range of the type it stands for, and otherwise the error that it is
not. So it is for integers, in patterns, for the lengths of arrays and behind a sign, with one exception:
the magnitude of the least integer, which is out of range by itself, is known by its digits and not by
its value, so with a zero in front it is refused even behind a sign.

* `Numeral`: the digits that a number is written with, and their value by places;
* `Numeral.digits_inj`: without a zero in front, the value tells the digits;
* `ElementType`: some tokens that are a type when they are read alone;
* `numerals_judged`: what comes of numbers wherever they may stand;
* `least_refused`: the least integer with a zero in front.
-/

import ContractSyntax.Proofs.Decimal.Digits
import ContractSyntax.Proofs.Failure.Rejecting
import ContractSyntax.Proofs.Lexing.Rules
import ContractSyntax.Proofs.Printing.Reread
import Mathlib.Data.Nat.Digits.Lemmas

namespace ContractSyntax

/-! ### Numerals -/

/-- The digits that a whole number is written with. -/
structure Numeral where
  digits : String
  wellFormed : (Token.int digits).WellFormed

namespace Numeral

variable (numeral : Numeral)

/-- The values of the digits, that of the ones first. -/
def places : List Nat := numeral.digits.toList.reverse.map digitValue

/-- The number, which has a digit for each power of ten. -/
def value : Nat := Nat.ofDigits 10 numeral.places

/-- Whether the first digit is a zero. -/
def LeadsWithZero : Prop := numeral.digits.toList.head? = some '0'

instance : Decidable numeral.LeadsWithZero := inferInstanceAs (Decidable (_ = _))

/-- Where the number stands in a text of which it is the end. -/
def spanAt (offset : Nat) : Span := ⟨offset, offset + numeral.digits.utf8ByteSize⟩

/-- The error that the number is out of a range. -/
abbrev refusal (cause : String → Cause) (place : Span) : SyntaxError :=
  ⟨cause numeral.digits, some (.int numeral.digits), place⟩

/-- What comes of the number at some place: a tree with its value if that is below the bound, and
otherwise the error that it is not. -/
def judged {α : Type} (bound : Nat) (cause : String → Cause) (place : Span) (tree : Nat → α) :
    Except SourceError α :=
  if numeral.value < bound then .ok (tree numeral.value)
  else .error (.syntactic (numeral.refusal cause place))

/-- The value that a parser reads is the one by places. -/
theorem digitsValue_digits : digitsValue numeral.digits.toList = numeral.value := by
  unfold value places
  generalize numeral.digits.toList = digits
  induction digits using List.reverseRecOn with
  | nil => rfl
  | append_singleton digits last continued =>
    rw [digitsValue_append, continued, List.reverse_append, List.reverse_singleton,
      List.singleton_append, List.map_cons, Nat.ofDigits_cons, Nat.add_comm]

theorem readInt64?_eq : readInt64? numeral.digits =
    if numeral.value < int64Bound then some (Int64.ofNat numeral.value) else none := by
  rw [readInt64?, digitsValue_digits]

theorem readUInt64?_eq : readUInt64? numeral.digits =
    if numeral.value < UInt64.size then some (UInt64.ofNat numeral.value) else none := by
  rw [readUInt64?, digitsValue_digits]

/-! ### Digits and values -/

theorem ofNat_digitValue {digit : Char} (decimal : digit.isDigit = true) :
    Char.ofNat (digitValue digit + '0'.toNat) = digit := by
  have range := Char.isDigit_iff_toNat.mp decimal
  rw [digitValue, Nat.sub_add_cancel range.1, Char.ofNat_toNat]

theorem digitValue_lt {digit : Char} (decimal : digit.isDigit = true) : digitValue digit < 10 := by
  have range := (Char.isDigit_iff_toNat.mp decimal).2
  change digit.toNat ≤ 57 at range
  show digit.toNat - 48 < 10
  omega

/-- The digits, told by their values. -/
theorem digits_eq : numeral.digits.toList.reverse =
    numeral.places.map fun digit => Char.ofNat (digit + '0'.toNat) := by
  have same : ∀ digit ∈ numeral.digits.toList.reverse,
      digit = Char.ofNat (digitValue digit + '0'.toNat) := fun digit member =>
    (ofNat_digitValue (numeral.wellFormed.2 digit (List.mem_reverse.mp member))).symm
  rw [places, List.map_map]
  exact (List.map_id _).symm.trans (List.map_congr_left same)

/-- A number without a zero in front has the digits of its value. -/
theorem digits_value (plain : ¬ numeral.LeadsWithZero) :
    Nat.digits 10 numeral.value = numeral.places := by
  obtain ⟨first, rest, written⟩ := List.exists_cons_of_ne_nil numeral.wellFormed.1
  have row : numeral.places = rest.reverse.map digitValue ++ [digitValue first] := by
    rw [places, written, List.reverse_cons, List.map_append, List.map_singleton]
  refine Nat.digits_ofDigits 10 (by decide) _ ?_ ?_
  · intro value member
    obtain ⟨digit, inside, rfl⟩ := List.mem_map.mp member
    exact digitValue_lt (numeral.wellFormed.2 digit (List.mem_reverse.mp inside))
  · simp only [row, List.getLast_concat]
    intro _ zero
    have decimal := numeral.wellFormed.2 first (written ▸ List.mem_cons_self)
    have front : '0' = first := by
      rw [← ofNat_digitValue decimal, zero]
      rfl
    exact plain (by rw [LeadsWithZero, written, front, List.head?_cons])

/-- Numbers without a zero in front that have the same value have the same digits. -/
theorem digits_inj {first second : Numeral} (plain : ¬ first.LeadsWithZero)
    (plain' : ¬ second.LeadsWithZero) (same : first.value = second.value) :
    first.digits = second.digits := by
  have places : first.places = second.places := by
    rw [← first.digits_value plain, ← second.digits_value plain', same]
  have reversed : first.digits.toList.reverse = second.digits.toList.reverse := by
    rw [digits_eq, digits_eq, places]
  exact String.toList_inj.mp (List.reverse_injective reversed)

/-- The digits of the least integer without its sign. -/
def least : Numeral where
  digits := Level.leastMagnitude
  wellFormed := ⟨by decide +kernel, List.all_eq_true.mp (by decide +kernel)⟩

theorem value_least : least.value = int64Bound := by
  rw [← digitsValue_digits]
  decide +kernel

theorem least_plain : ¬ least.LeadsWithZero := by decide +kernel

/-- Without a zero in front, the magnitude of the least integer has one spelling. -/
theorem digits_eq_leastMagnitude_iff :
    numeral.digits = Level.leastMagnitude ↔
      numeral.value = int64Bound ∧ ¬ numeral.LeadsWithZero := by
  constructor
  · intro same
    obtain rfl : numeral = least := by
      obtain ⟨digits, wellFormed⟩ := numeral
      cases (show digits = Level.leastMagnitude from same)
      rfl
    exact ⟨value_least, least_plain⟩
  · rintro ⟨value, plain⟩
    exact digits_inj plain least_plain (value.trans value_least.symm)

/-! ### Tokens of numerals -/

/-- The digits as a token. -/
abbrev token (place : Span) : Spanned Token := ⟨.int numeral.digits, place⟩

theorem scans (offset : Nat) :
    Scans [] offset numeral.digits.toList [numeral.token (numeral.spanAt offset)] := by
  have here : Scans [] offset ((Token.int numeral.digits).text.toList ++ []) _ :=
    .token numeral.wellFormed (Token.stops_nil _) (.nil _)
  rwa [List.append_nil] at here

theorem tokenize_digits : tokenize numeral.digits = .ok [numeral.token (numeral.spanAt 0)] :=
  tokenize_eq_ok_iff.mpr (numeral.scans 0)

theorem tokenize_negated :
    tokenize ("-" ++ numeral.digits) =
      .ok [⟨.symbol .minus, 0, 1⟩, numeral.token (numeral.spanAt 1)] := by
  have stops : (Token.symbol .minus).Stops (numeral.digits.toList ++ []) := by
    obtain ⟨first, rest, written⟩ := List.exists_cons_of_ne_nil numeral.wellFormed.1
    have decimal := numeral.wellFormed.2 first (written ▸ List.mem_cons_self)
    rw [written]
    rintro next ⟨⟩
    simp only [Symbol.joins, beq_eq_false_iff_ne]
    rintro rfl
    cases decimal
  have whole : Scans [] 0 ((Token.symbol .minus).text.toList ++ numeral.digits.toList) _ :=
    .token trivial stops (numeral.scans 1)
  rw [tokenize_eq_ok_iff, String.toList_append]
  exact whole

/-! ### Numerals that are read -/

variable {numeral} {place : Span}

section Small

variable (small : numeral.value < int64Bound)

include small

theorem derives_pattern :
    Pattern.Derives [numeral.token place] ⟨.literal (.int (Int64.ofNat numeral.value)), place⟩ :=
  .int (numeral.readInt64?_eq.trans (if_pos small)) place

theorem derives_signed :
    Derives .signed [numeral.token place] ⟨.int (Int64.ofNat numeral.value), place⟩ 0 :=
  .unsigned (.operand (.int (numeral.readInt64?_eq.trans (if_pos small)) place))

theorem derives :
    Derives .subexpr [numeral.token place] ⟨.int (Int64.ofNat numeral.value), place⟩ 1 :=
  .nested (.operators (.single 1 (derives_signed small)))

theorem derives_negated (sign : Span) :
    Derives .subexpr [⟨.symbol .minus, sign⟩, numeral.token place]
      ⟨.unary .negate ⟨.int (Int64.ofNat numeral.value), place⟩, sign.merge place⟩ 2 :=
  .nested (.operators (.single 1
    (.unary .negate ⟨.symbol .minus, sign⟩ [] rfl (derives_signed small))))

end Small

theorem derives_least (same : numeral.digits = Level.leastMagnitude) (sign : Span) :
    Derives .subexpr [⟨.symbol .minus, sign⟩, numeral.token place]
      ⟨.int Int64.minValue, sign.merge place⟩ 1 := by
  rw [token, same]
  exact .nested (.operators (.single 1 (.least sign place)))

/-! ### Numerals that are refused -/

section Large

variable (large : ¬ numeral.value < int64Bound) {room : Nat}

include large

theorem rejects_pattern :
    Parser.pattern.Rejects [numeral.token place] (numeral.refusal .integerRange place) 0 room :=
  .current (.first (.literalValue (numeral.readInt64?_eq.trans (if_neg large))))

theorem rejects_primary (deeper : Level) :
    deeper.primary.Rejects [numeral.token place] (numeral.refusal .integerRange place) 0 room :=
  .current (.first (.literalValue (numeral.readInt64?_eq.trans (if_neg large))))

theorem rejects_signed (deeper : Level) :
    deeper.signedBody.Rejects [numeral.token place] (numeral.refusal .integerRange place) 0 room :=
  .current (.chain (rejects_primary large deeper))

theorem rejects :
    Parser.expression.Rejects [numeral.token place] (numeral.refusal .integerRange place) 1 room :=
  .nested fun _ _ => .current (.chain (rejects_signed large _))

/-- Behind a sign, digits other than those of the least integer are an operand by themselves. -/
theorem rejects_negated (sign : Span) (other : numeral.digits ≠ Level.leastMagnitude) :
    Parser.expression.Rejects [⟨.symbol .minus, sign⟩, numeral.token place]
      (numeral.refusal .integerRange place) 2 room := by
  have here : [numeral.token place].head?.map Spanned.node ≠ some (.int Level.leastMagnitude) :=
    fun same => other (Token.int.inj (Option.some.inj same))
  have plain (room : Nat) : Level.leastDigits?.Takes [] [numeral.token place] none 0 room := by
    refine .current ?_
    rw [List.nil_append, if_neg here]
    exact .pure
  refine .nested fun smaller _ => .current (.chain (.current (.pass (.flat (plain _) ?_))))
  exact .first (.nested fun smaller _ => rejects_signed large _)

end Large

/-! ### Numerals that are judged -/

section Judged

variable {α : Type} {parser : Parser α} {source : String} {tokens : Tokens} {bound height : Nat}
  {cause : String → Cause} {tree : Nat → α} (lexed : tokenize source = .ok tokens)
  (takes : numeral.value < bound → parser.Takes tokens [] (tree numeral.value) height nestingLimit)
  (rejects : ¬ numeral.value < bound →
    parser.Rejects tokens (numeral.refusal cause place) height nestingLimit)

include lexed takes rejects

/-- A text is judged by its number if its tokens are taken or rejected as the number is below a bound
or not. -/
theorem read_judged :
    (height ≤ nestingLimit ∧
      (readAll parser source).value = numeral.judged bound cause place tree) ∨
    (nestingLimit < height ∧ ∃ error, (readAll parser source).value = .error (.syntactic error) ∧
      error.message = "nesting deeper than 256 levels") := by
  unfold judged
  by_cases small : numeral.value < bound
  · rw [if_pos small]
    exact readAll_taken lexed (takes small)
  · rw [if_neg small]
    exact readAll_rejected lexed (rejects small)

theorem read_judged_of_le (fits : height ≤ nestingLimit) :
    (readAll parser source).value = numeral.judged bound cause place tree := by
  rcases read_judged lexed takes rejects with ⟨_, read⟩ | ⟨large, _⟩
  · exact read
  · exact absurd fits (Nat.not_le.mpr large)

end Judged

end Numeral

/-! ### Lengths of arrays -/

/-- The next token does not refine a type. -/
theorem EndsType.cons {token : Token} {span : Span} {rest : Tokens}
    (other : token ≠ .symbol .leftBrace) : EndsType (⟨token, span⟩ :: rest) :=
  fun same => other (Option.some.inj same)

theorem endsType_nil : EndsType [] := by
  rintro ⟨⟩

/-- Some tokens all of which are a type when they are read alone. -/
structure ElementType where
  tokens : Tokens
  stop : Nat
  tree : Spanned Ty
  read : (Parser.type.alone stop tokens).1 = .ok tree
  complete : (Parser.type.alone stop tokens).2.cursor.remaining = []

namespace ElementType

variable (element : ElementType)

/-- The levels of nesting that reading the type opens. -/
def levels : Nat := (Parser.type.alone element.stop element.tokens).2.nesting.peak

/-- The tokens of an array of elements of the type. -/
def arrayTokens (start semicolon place stop : Span) (digits : String) : Tokens :=
  ⟨.symbol .leftBracket, start⟩ :: (element.tokens ++ [⟨.symbol .semicolon, semicolon⟩,
    ⟨.int digits, place⟩, ⟨.symbol .rightBracket, stop⟩])

/-- A type is derived from its tokens, wherever these stand. -/
theorem derives : Derives .subtype element.tokens element.tree element.levels := by
  have sound : Level.top.Sound := Level.sound_tower nestingLimit
  have yields : Parser.type.Yields (.start element.stop element.tokens)
      (Derives.Meaning .subtype) := sound.subtype
  obtain ⟨passed, passes, derived⟩ := yields.alone element.read
  have remaining : element.tokens = passed ++ _ := passes.remaining
  rw [element.complete, List.append_nil] at remaining
  rw [remaining]
  exact derived

/-- Tokens from which a type is derived are one when they are read alone. -/
def ofDerives {tokens : Tokens} {tree : Spanned Ty} {height : Nat}
    (derived : Derives .subtype tokens tree height) (fits : height ≤ nestingLimit) (stop : Nat) :
    ElementType :=
  have takes : Parser.type.Takes tokens [] tree height nestingLimit :=
    derived.takes_type (Nat.le_refl _) endsType_nil
  ⟨tokens, stop, tree, (takes.alone fits stop).1, (takes.alone fits stop).2⟩

variable {numeral : Numeral}

theorem derives_array (small : numeral.value < UInt64.size) (start semicolon place stop : Span) :
    Derives .subtype (element.arrayTokens start semicolon place stop numeral.digits)
      ⟨.array element.tree.node (UInt64.ofNat numeral.value), start.merge stop⟩
      (element.levels + 1) :=
  .nestedType (.arrayType start semicolon place stop (numeral.readUInt64?_eq.trans (if_pos small))
    element.derives)

/-- The length of an array is read behind its element type, and passed before it is refused. -/
theorem rejects_array (large : ¬ numeral.value < UInt64.size) (start semicolon place stop : Span) :
    Parser.type.Rejects (element.arrayTokens start semicolon place stop numeral.digits)
      (numeral.refusal .lengthRange place) (element.levels + 1) nestingLimit := by
  have length (room : Nat) : arrayLength.Rejects [numeral.token place, ⟨.symbol .rightBracket, stop⟩]
      (numeral.refusal .lengthRange place) 0 room := by
    refine .current (.pass ?_)
    simp only [numeral.readUInt64?_eq, if_neg large]
    exact .failWith
  refine .nested fun smaller inside => .current (.pass ?_)
  have takes := element.derives.reads 255 smaller
    [⟨.symbol .semicolon, semicolon⟩, numeral.token place, ⟨.symbol .rightBracket, stop⟩]
    (Nat.le_of_eq (Nat.succ.inj inside)) (.cons (by decide))
  exact (Nat.max_zero element.levels) ▸ .behind takes (.expect (.first (length smaller)))

end ElementType

/-- What a text is read as whose tokens are those of an array. -/
theorem readType_judged (numeral : Numeral) (element : ElementType)
    (start semicolon place stop : Span) {source : String}
    (lexed : tokenize source =
      .ok (element.arrayTokens start semicolon place stop numeral.digits)) :
    (element.levels + 1 ≤ nestingLimit ∧
      (readType source).value = numeral.judged UInt64.size .lengthRange place fun length =>
        ⟨.array element.tree.node (UInt64.ofNat length), start.merge stop⟩) ∨
    (nestingLimit < element.levels + 1 ∧
      ∃ error, (readType source).value = .error (.syntactic error) ∧
        error.message = "nesting deeper than 256 levels") :=
  Numeral.read_judged lexed
    (fun small =>
      (element.derives_array small start semicolon place stop).takes_type (Nat.le_refl _) endsType_nil)
    fun large => element.rejects_array large start semicolon place stop

/-! ### Integers -/

theorem readExpr_judged (numeral : Numeral) :
    (readExpr numeral.digits).value =
      numeral.judged int64Bound .integerRange (numeral.spanAt 0) fun value =>
        ⟨.int (Int64.ofNat value), numeral.spanAt 0⟩ :=
  Numeral.read_judged_of_le numeral.tokenize_digits
    (fun small => (Numeral.derives small).takes_expression (Nat.le_refl _) endsExpr_nil)
    (fun large => Numeral.rejects large) (by decide)

theorem readPattern_judged (numeral : Numeral) :
    (readPattern numeral.digits).value =
      numeral.judged int64Bound .integerRange (numeral.spanAt 0) fun value =>
        ⟨.literal (.int (Int64.ofNat value)), numeral.spanAt 0⟩ :=
  Numeral.read_judged_of_le numeral.tokenize_digits
    (fun small => Level.takes_pattern (Numeral.derives_pattern small) endsExpr_nil.operand.name)
    (fun large => Numeral.rejects_pattern large) (by decide)

/-- Behind a sign, only the digits of the least integer are judged otherwise than without it. -/
theorem readExpr_negated (numeral : Numeral) :
    (readExpr ("-" ++ numeral.digits)).value =
      if numeral.value = int64Bound ∧ ¬ numeral.LeadsWithZero then
        .ok ⟨.int Int64.minValue, 0, 1 + numeral.digits.utf8ByteSize⟩
      else
        numeral.judged int64Bound .integerRange (numeral.spanAt 1) fun value =>
          ⟨.unary .negate ⟨.int (Int64.ofNat value), numeral.spanAt 1⟩, 0,
            1 + numeral.digits.utf8ByteSize⟩ := by
  have whole : (⟨0, 1⟩ : Span).merge (numeral.spanAt 1) = ⟨0, 1 + numeral.digits.utf8ByteSize⟩ := by
    simp [Span.merge, Numeral.spanAt]
  rw [← whole]
  by_cases least : numeral.digits = Level.leastMagnitude
  · rw [if_pos (numeral.digits_eq_leastMagnitude_iff.mp least)]
    rcases readAll_taken numeral.tokenize_negated
      ((Numeral.derives_least least _).takes_expression (Nat.le_refl _) endsExpr_nil) with
      ⟨_, read⟩ | ⟨large, _⟩
    · exact read
    · exact absurd large (by decide)
  · rw [if_neg (mt numeral.digits_eq_leastMagnitude_iff.mpr least)]
    exact Numeral.read_judged_of_le numeral.tokenize_negated
      (fun small => (Numeral.derives_negated small _).takes_expression (Nat.le_refl _) endsExpr_nil)
      (fun large => Numeral.rejects_negated large _ least) (by decide)

/-- **Whole numbers are judged by their value.** An integer and a pattern are the value if it is in the
range of integers, and an array has it as its length if it is in the range of lengths; otherwise the
literal is malformed. Behind a sign it is negated under the same condition, but for the magnitude of the
least integer, which makes that integer if it is written without a zero in front. -/
theorem numerals_judged (numeral : Numeral) :
    (readExpr numeral.digits).value =
        (numeral.judged int64Bound .integerRange (numeral.spanAt 0) fun value =>
          ⟨.int (Int64.ofNat value), numeral.spanAt 0⟩) ∧
      (readPattern numeral.digits).value =
        (numeral.judged int64Bound .integerRange (numeral.spanAt 0) fun value =>
          ⟨.literal (.int (Int64.ofNat value)), numeral.spanAt 0⟩) ∧
      (∀ (element : ElementType) (start semicolon place stop : Span) (source : String),
        tokenize source = .ok (element.arrayTokens start semicolon place stop numeral.digits) →
          (element.levels + 1 ≤ nestingLimit ∧
            (readType source).value =
              numeral.judged UInt64.size .lengthRange place fun length =>
                ⟨.array element.tree.node (UInt64.ofNat length), start.merge stop⟩) ∨
          (nestingLimit < element.levels + 1 ∧
            ∃ error, (readType source).value = .error (.syntactic error) ∧
              error.message = "nesting deeper than 256 levels")) ∧
      ((readExpr ("-" ++ numeral.digits)).value =
        if numeral.value = int64Bound ∧ ¬ numeral.LeadsWithZero then
          .ok ⟨.int Int64.minValue, 0, 1 + numeral.digits.utf8ByteSize⟩
        else
          numeral.judged int64Bound .integerRange (numeral.spanAt 1) fun value =>
            ⟨.unary .negate ⟨.int (Int64.ofNat value), numeral.spanAt 1⟩, 0,
              1 + numeral.digits.utf8ByteSize⟩) ∧
      ∀ place,
        (numeral.refusal .integerRange place).message =
            "malformed literal: integer " ++ quoteSource numeral.digits ++ " out of range" ∧
          (numeral.refusal .lengthRange place).message =
            "malformed literal: array length " ++ quoteSource numeral.digits ++ " out of range" :=
  ⟨readExpr_judged numeral, readPattern_judged numeral,
    fun element start semicolon place stop _ lexed =>
      readType_judged numeral element start semicolon place stop lexed,
    readExpr_negated numeral, fun _ => ⟨rfl, rfl⟩⟩

/-- Zeros in front of a number, wherever it may stand. -/
theorem numerals_judged_of_zeros :
    (readExpr "007").value = .ok ⟨.int 7, 0, 3⟩ ∧
      (readPattern "007").value = .ok ⟨.literal (.int 7), 0, 3⟩ ∧
      (readType "[i64; 007]").value = .ok ⟨.array (.primitive .i64) 7, 0, 10⟩ ∧
      (readExpr "-007").value = .ok ⟨.unary .negate ⟨.int 7, 1, 4⟩, 0, 4⟩ := by
  let seven : Numeral := ⟨"007", by decide +kernel, List.all_eq_true.mp (by decide +kernel)⟩
  let element : ElementType :=
    .ofDerives (.nestedType (.primitive .i64 ⟨1, 4⟩)) (show 1 ≤ nestingLimit by decide) 10
  have value : seven.value = 7 := by decide +kernel
  have levels : element.levels = 1 := by decide +kernel
  have lexed : tokenize "[i64; 007]" =
      .ok (element.arrayTokens ⟨0, 1⟩ ⟨4, 5⟩ ⟨6, 9⟩ ⟨9, 10⟩ seven.digits) :=
    ok_of_toOption (by decide +kernel)
  have judged {α : Type} (bound : Nat) (small : 7 < bound) (cause : String → Cause) (place : Span)
      (tree : Nat → α) : seven.judged bound cause place tree = .ok (tree 7) := by
    rw [Numeral.judged, value, if_pos small]
  obtain ⟨integer, pattern, array, negated, _⟩ := numerals_judged seven
  rw [if_neg fun least => absurd (value.symm.trans least.1) (by decide)] at negated
  refine ⟨integer.trans (judged int64Bound (by decide) _ _ _),
    pattern.trans (judged int64Bound (by decide) _ _ _), ?_,
    negated.trans (judged int64Bound (by decide) _ _ _)⟩
  rcases array element _ _ _ _ _ lexed with ⟨_, read⟩ | ⟨large, _⟩
  · exact read.trans (judged UInt64.size (by decide) _ _ _)
  · rw [levels] at large
    exact absurd large (by decide)

/-- The magnitude of the least integer is refused behind its sign if a zero is in front of it. -/
theorem least_refused :
    Nat.ofDigits 10 ("09223372036854775808".toList.reverse.map digitValue) = 2 ^ 63 ∧
      (readExpr "-09223372036854775808").value = .error (.syntactic
        ⟨.integerRange "09223372036854775808", some (.int "09223372036854775808"), 1, 21⟩) := by
  let padded : Numeral :=
    ⟨"09223372036854775808", by decide +kernel, List.all_eq_true.mp (by decide +kernel)⟩
  have value : padded.value = 2 ^ 63 := by decide +kernel
  have zero : padded.LeadsWithZero := by decide +kernel
  refine ⟨value, (readExpr_negated padded).trans ?_⟩
  rw [if_neg fun plain => plain.2 zero, Numeral.judged, value]
  rfl

end ContractSyntax
