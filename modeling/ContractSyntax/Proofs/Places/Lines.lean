/-
**Positions count line feeds and characters.**

A position is found by binary searches in two tables. What it says can be told from the bytes of the
text alone: its line is one more than the line feeds before the offset, and its column one more than
the characters that start between the last of these line feeds and the offset. An offset past the end
stands for the end, and one inside a character has that character before it.

* `LineIndex.position?`: the same searches, given up at an entry outside its table or a difference
  below zero;
* `bisect_eq_countP`: a binary search counts the entries that pass;
* `lineTable_getElem?`: the entry of a line is where the line starts;
* `position_locates`: positions are as told, nothing is given up on the way, and on the boundaries of
  characters positions increase with the offsets.
-/

import ContractSyntax.LineIndex
import ContractSyntax.Proofs.Lexing.Places
import Mathlib.Data.Nat.PSub
import Mathlib.Data.Prod.Lex
import Mathlib.Data.Set.Function
import Mathlib.Order.Monotone.Basic

namespace ContractSyntax

/-! ### Line feeds and characters of a text -/

/-- The byte at the end of a line. -/
def lineFeed : UInt8 := 0x0a

/-- The bytes of a text. -/
def bytes (source : String) : List UInt8 := source.toByteArray.data.toList

/-- How many line feeds there are before an offset. -/
def lineFeedsBefore (source : String) (offset : Nat) : Nat :=
  ((bytes source).take offset).count lineFeed

/-- Where the line of an offset starts: behind the last line feed before it, or with the text. -/
def lineStart (source : String) : Nat → Nat
  | 0 => 0
  | offset + 1 =>
    if (bytes source)[offset]? = some lineFeed then offset + 1 else lineStart source offset

/-- Where each character of a text starts that itself starts at `offset`. -/
def characterStarts (offset : Nat) : List Char → List Nat
  | [] => []
  | character :: rest => offset :: characterStarts (offset + character.utf8Size) rest

/-- How many characters of a text start at one offset or behind it, and before another. -/
def charactersBetween (source : String) (low high : Nat) : Nat :=
  (characterStarts 0 source.toList).countP fun start => low ≤ start && start < high

/-- Where the characters of a text begin, and where the last one ends. -/
def boundaries (source : String) : Set Nat := {offset | (⟨offset⟩ : String.Pos.Raw).IsValid source}

/-- Whether a position says of a place what can be counted in the bytes of the text. -/
structure Position.Locates (position : Position) (source : String) (place : Nat) : Prop where
  offset : position.offset = place
  line : position.line = 1 + lineFeedsBefore source place
  column : position.column = 1 + charactersBetween source (lineStart source place) place

theorem bytes_eq (source : String) : bytes source = source.toList.flatMap String.utf8EncodeChar := by
  unfold bytes
  rw [← String.utf8Encode_toList, List.utf8Encode, List.data_toByteArray]

theorem lineFeedsBefore_succ (source : String) (offset : Nat) :
    lineFeedsBefore source (offset + 1) =
      lineFeedsBefore source offset + if (bytes source)[offset]? = some lineFeed then 1 else 0 := by
  unfold lineFeedsBefore
  rw [List.take_add_one, List.count_append]
  congr 1
  cases (bytes source)[offset]? with
  | none => rfl
  | some byte => simp [List.count_singleton]

theorem lineFeedsBefore_mono (source : String) : Monotone (lineFeedsBefore source) :=
  monotone_nat_of_le_succ fun offset => by
    rw [lineFeedsBefore_succ]
    exact Nat.le_add_right _ _

theorem lineStart_le (source : String) (offset : Nat) : lineStart source offset ≤ offset := by
  induction offset with
  | zero => exact Nat.le_refl 0
  | succ offset before =>
    unfold lineStart
    split
    · exact Nat.le_refl _
    · exact Nat.le_succ_of_le before

/-! ### The tables -/

/-- Where the lines of a text start but for the first, if the text starts at `offset`. -/
def lineStarts (offset : Nat) : List Char → List Nat
  | [] => []
  | character :: rest =>
    let next := offset + character.utf8Size
    if character = '\n' then next :: lineStarts next rest else lineStarts next rest

theorem le_of_mem_characterStarts {offset start : Nat} {characters : List Char}
    (member : start ∈ characterStarts offset characters) : offset ≤ start := by
  induction characters generalizing offset with
  | nil => cases member
  | cons first rest continued =>
    rcases List.mem_cons.mp member with rfl | later
    · exact Nat.le_refl _
    · exact Nat.le_trans (Nat.le_add_right _ _) (continued later)

theorem lt_of_mem_lineStarts {offset start : Nat} {characters : List Char}
    (member : start ∈ lineStarts offset characters) : offset < start := by
  induction characters generalizing offset with
  | nil => cases member
  | cons first rest continued =>
    have more := first.utf8Size_pos
    unfold lineStarts at member
    dsimp only at member
    split at member
    · rcases List.mem_cons.mp member with rfl | later
      · omega
      · have := continued later
        omega
    · have := continued member
      omega

theorem characterStarts_increase (offset : Nat) (characters : List Char) :
    (characterStarts offset characters).Pairwise (· < ·) := by
  induction characters generalizing offset with
  | nil => exact .nil
  | cons first rest continued =>
    refine .cons (fun start member => ?_) (continued _)
    have := le_of_mem_characterStarts member
    have := first.utf8Size_pos
    omega

/-- A line starts where some characters of the text end. -/
theorem append_of_mem_lineStarts {offset start : Nat} {characters : List Char}
    (member : start ∈ lineStarts offset characters) :
    ∃ before after, characters = before ++ after ∧ start = offset + byteLength before := by
  induction characters generalizing offset with
  | nil => cases member
  | cons first rest continued =>
    have later (member : start ∈ lineStarts (offset + first.utf8Size) rest) :
        ∃ before after, first :: rest = before ++ after ∧ start = offset + byteLength before := by
      obtain ⟨before, after, rfl, rfl⟩ := continued member
      exact ⟨first :: before, after, rfl, by rw [byteLength_cons, Nat.add_assoc]⟩
    unfold lineStarts at member
    dsimp only at member
    split at member
    · rcases List.mem_cons.mp member with rfl | member
      · exact ⟨[first], rest, rfl, by rw [byteLength_cons]; rfl⟩
      · exact later member
    · exact later member

theorem lineStarts_increase (offset : Nat) (characters : List Char) :
    (lineStarts offset characters).Pairwise (· < ·) := by
  induction characters generalizing offset with
  | nil => exact .nil
  | cons first rest continued =>
    unfold lineStarts
    dsimp only
    split
    · exact .cons (fun _ member => lt_of_mem_lineStarts member) (continued _)
    · exact continued _

theorem characterStarts_append (offset : Nat) (first second : List Char) :
    characterStarts offset (first ++ second) =
      characterStarts offset first ++ characterStarts (offset + byteLength first) second := by
  induction first generalizing offset with
  | nil => rfl
  | cons character rest continued =>
    rw [List.cons_append, characterStarts, continued, byteLength_cons, Nat.add_assoc]
    rfl

theorem extend_eq (index : LineIndex) (characters : List Char) :
    index.extend characters =
      ⟨index.size + byteLength characters,
        index.characters ++ (characterStarts index.size characters).toArray,
        index.lines ++ (lineStarts index.size characters).toArray⟩ := by
  induction characters generalizing index with
  | nil => simp [LineIndex.extend, characterStarts, lineStarts, byteLength]
  | cons character rest continued =>
    rw [LineIndex.extend, continued, byteLength_cons, characterStarts, lineStarts]
    by_cases ends : character = '\n'
    · simp [ends, Nat.add_assoc]
    · simp [ends, Nat.add_assoc]

theorem ofText_eq (source : String) :
    LineIndex.ofText source =
      ⟨source.utf8ByteSize, (characterStarts 0 source.toList).toArray,
        (0 :: lineStarts 0 source.toList).toArray⟩ := by
  rw [LineIndex.ofText, LineIndex.ofList, extend_eq, byteLength_toList]
  simp

/-! ### Counting in the tables -/

theorem eq_of_lineFeed_eq {value : Nat} (byte : value < 256) (same : lineFeed = UInt8.ofNat value) :
    value = '\n'.toNat := by
  have values := congrArg UInt8.toNat same
  rw [UInt8.toNat_ofNat', Nat.mod_eq_of_lt byte] at values
  exact values.symm

theorem lineFeed_notMem_utf8EncodeChar {character : Char} (other : character ≠ '\n') :
    lineFeed ∉ String.utf8EncodeChar character := by
  unfold String.utf8EncodeChar
  dsimp only
  generalize code : character.val.toNat = value
  split
  · intro member
    have feed := eq_of_lineFeed_eq (by omega) (List.mem_singleton.mp member)
    exact other (Char.ext (UInt32.toNat_inj.mp (code.trans feed)))
  · -- All bytes of a character that takes several have their highest bit set.
    have high {value : Nat} (least : 128 ≤ value) (byte : value < 256) :
        lineFeed ≠ UInt8.ofNat value := fun same =>
      absurd (eq_of_lineFeed_eq byte same) (Nat.ne_of_gt (Nat.lt_of_lt_of_le (by decide) least))
    repeat' split
    all_goals
      simp only [List.mem_cons, List.not_mem_nil, or_false, not_or]
      and_intros
    all_goals exact high (by omega) (by omega)

/-- The line feeds in the first bytes of a text, by where they end. -/
theorem count_take_flatMap (offset length : Nat) (characters : List Char) :
    ((characters.flatMap String.utf8EncodeChar).take length).count lineFeed =
      (lineStarts offset characters).countP (· ≤ offset + length) := by
  induction characters generalizing offset length with
  | nil => simp [lineStarts]
  | cons character rest continued =>
    have later := continued (offset + character.utf8Size) (length - character.utf8Size)
    have behind : (lineStarts (offset + character.utf8Size) rest).countP
          (· ≤ offset + character.utf8Size + (length - character.utf8Size)) =
        (lineStarts (offset + character.utf8Size) rest).countP (· ≤ offset + length) := by
      refine List.countP_congr fun start member => ?_
      have := lt_of_mem_lineStarts member
      simp only [decide_eq_true_eq]
      omega
    rw [List.flatMap_cons, List.take_append, List.count_append, String.length_utf8EncodeChar, later,
      behind, lineStarts]
    by_cases feed : character = '\n'
    · subst feed
      cases length with
      | zero => simp [Char.utf8Size]
      | succ length => simp [lineFeed, Char.utf8Size, Nat.add_comm, String.utf8EncodeChar]
    · have none : ((String.utf8EncodeChar character).take length).count lineFeed = 0 :=
        List.count_eq_zero.mpr fun member =>
          lineFeed_notMem_utf8EncodeChar feed (List.mem_of_mem_take member)
      simp [none, feed]

/-! ### Searching -/

/-- In a table whose entries that pass precede those that fail, those that pass are as many as come
first. -/
theorem lt_countP_iff {table : List Nat} {below : Nat → Bool}
    (parted : table.Pairwise fun first second => below second = true → below first = true)
    {place : Nat} (within : place < table.length) :
    place < table.countP below ↔ below table[place] = true := by
  induction table generalizing place with
  | nil => cases within
  | cons first rest continued =>
    obtain ⟨earlier, parted⟩ := List.pairwise_cons.mp parted
    by_cases passes : below first = true
    · rw [List.countP_cons_of_pos passes]
      cases place with
      | zero => exact ⟨fun _ => passes, fun _ => Nat.succ_pos _⟩
      | succ place =>
        rw [Nat.add_lt_add_iff_right]
        exact continued parted (Nat.lt_of_succ_lt_succ within)
    · have none : rest.countP below = 0 :=
        List.countP_eq_zero.mpr fun entry member passed => passes (earlier entry member passed)
      rw [List.countP_cons_of_neg passes, none]
      refine ⟨fun less => absurd less (Nat.not_lt_zero _), fun passed => ?_⟩
      cases place with
      | zero => exact absurd passed passes
      | succ place => exact absurd (earlier _ (List.getElem_mem _) passed) passes

theorem getD_toArray {table : List Nat} {place : Nat} (within : place < table.length) :
    table.toArray.getD place 0 = table[place] := by
  simp [Array.getD, within]

/-- In such a table, a binary search counts the entries that pass. -/
theorem bisect_eq_countP {table : List Nat} {below : Nat → Bool}
    (parted : table.Pairwise fun first second => below second = true → below first = true) :
    bisect table.toArray below 0 table.length = table.countP below := by
  have ordered : ∀ first second, first ≤ second → second < table.toArray.size →
      below (table.toArray.getD second 0) = true → below (table.toArray.getD first 0) = true := by
    intro first second le within
    have within' : second < table.length := within
    rw [getD_toArray within', getD_toArray (Nat.lt_of_le_of_lt le within'),
      ← lt_countP_iff parted, ← lt_countP_iff parted]
    exact Nat.lt_of_le_of_lt le
  have search (place : Nat) (within : place < table.length) :
      place < bisect table.toArray below 0 table.length ↔ place < table.countP below := by
    rw [lt_countP_iff parted within, ← getD_toArray within]
    exact lt_bisect_iff ordered (Nat.le_refl table.length) (Nat.zero_le place) within
  have most : bisect table.toArray below 0 table.length ≤ table.length :=
    bisect_le _ _ (Nat.zero_le _)
  have most' : table.countP below ≤ table.length := List.countP_le_length
  refine Nat.le_antisymm (Nat.le_of_not_lt fun less => ?_) (Nat.le_of_not_lt fun less => ?_)
  · exact absurd ((search _ (Nat.lt_of_lt_of_le less most)).mp less) (Nat.lt_irrefl _)
  · exact absurd ((search _ (Nat.lt_of_lt_of_le less most')).mpr less) (Nat.lt_irrefl _)

/-- In an increasing table, a search for a bound that is included. -/
theorem parted_le {table : List Nat} (increase : table.Pairwise (· < ·)) (bound : Nat) :
    table.Pairwise fun first second =>
      decide (second ≤ bound) = true → decide (first ≤ bound) = true :=
  increase.imp fun less => by
    simp only [decide_eq_true_eq]
    exact Nat.le_trans (Nat.le_of_lt less)

theorem parted_lt {table : List Nat} (increase : table.Pairwise (· < ·)) (bound : Nat) :
    table.Pairwise fun first second =>
      decide (second < bound) = true → decide (first < bound) = true :=
  increase.imp fun less => by
    simp only [decide_eq_true_eq]
    exact Nat.lt_trans less

/-! ### Lines -/

section Text

variable (source : String)

/-- Where the lines of a text start. -/
def lineTable : List Nat := 0 :: lineStarts 0 source.toList

theorem lineTable_increase : (lineTable source).Pairwise (· < ·) :=
  .cons (fun _ member => lt_of_mem_lineStarts member) (lineStarts_increase _ _)

/-- One line more than there are line feeds before it starts at or before an offset. -/
theorem countP_lineTable (offset : Nat) :
    (lineTable source).countP (· ≤ offset) = 1 + lineFeedsBefore source offset := by
  have counted := count_take_flatMap 0 offset source.toList
  rw [Nat.zero_add, ← bytes_eq] at counted
  rw [lineFeedsBefore, counted, lineTable, List.countP_cons, if_pos (decide_eq_true (Nat.zero_le _)),
    Nat.add_comm]

/-- A line starts at or before an offset if there are as many line feeds before that. -/
theorem lineTable_le_iff {place : Nat} (within : place < (lineTable source).length) (offset : Nat) :
    (lineTable source)[place] ≤ offset ↔ place < 1 + lineFeedsBefore source offset := by
  rw [← countP_lineTable, lt_countP_iff (parted_le (lineTable_increase source) offset) within,
    decide_eq_true_eq]

theorem lineFeedsBefore_lt (offset : Nat) :
    lineFeedsBefore source offset < (lineTable source).length := by
  have most : (lineTable source).countP (· ≤ offset) ≤ (lineTable source).length :=
    List.countP_le_length
  rw [countP_lineTable] at most
  omega

/-- The entry of the line of an offset is where that line starts. -/
theorem lineTable_getElem? (offset : Nat) :
    (lineTable source)[lineFeedsBefore source offset]? = some (lineStart source offset) := by
  induction offset with
  | zero => rfl
  | succ offset before =>
    by_cases feed : (bytes source)[offset]? = some lineFeed
    · have more := lineFeedsBefore_succ source offset
      rw [if_pos feed] at more
      have within := lineFeedsBefore_lt source (offset + 1)
      have early := (lineTable_le_iff source within (offset + 1)).mpr (by omega)
      have late := mt (lineTable_le_iff source within offset).mp (by omega)
      rw [lineStart, if_pos feed, List.getElem?_eq_getElem within]
      exact congrArg some (by omega)
    · rw [lineFeedsBefore_succ, if_neg feed, lineStart, if_neg feed, Nat.add_zero, before]

/-- Offsets with as many line feeds before them are on one line. -/
theorem lineStart_congr {first second : Nat}
    (same : lineFeedsBefore source first = lineFeedsBefore source second) :
    lineStart source first = lineStart source second := by
  have found := lineTable_getElem? source first
  rw [same, lineTable_getElem?] at found
  exact (Option.some.inj found).symm

/-! ### Characters -/

/-- What is counted up to an offset, and from there. -/
theorem charactersBetween_add {low middle high : Nat} (le : low ≤ middle) (le' : middle ≤ high) :
    charactersBetween source low middle + charactersBetween source middle high =
      charactersBetween source low high := by
  unfold charactersBetween
  induction characterStarts 0 source.toList with
  | nil => rfl
  | cons start rest continued =>
    simp only [List.countP_cons, Bool.and_eq_true, decide_eq_true_eq]
    split <;> split <;> split <;> omega

theorem countP_characterStarts (offset : Nat) :
    (characterStarts 0 source.toList).countP (· < offset) = charactersBetween source 0 offset := by
  refine List.countP_congr fun start _ => ?_
  simp

theorem mem_boundaries {offset : Nat} :
    offset ∈ boundaries source ↔
      ∃ before after, source = before ++ after ∧ offset = before.utf8ByteSize := by
  show String.Pos.Raw.IsValid _ _ ↔ _
  rw [String.Pos.Raw.isValid_iff_exists_append]
  simp [String.Pos.Raw.ext_iff]

/-- There is a character between two boundaries of characters. -/
theorem charactersBetween_pos {low high : Nat} (begins : low ∈ boundaries source)
    (less : low < high) (le : high ≤ source.utf8ByteSize) :
    0 < charactersBetween source low high := by
  obtain ⟨before, after, rfl, rfl⟩ := (mem_boundaries source).mp begins
  refine List.countP_pos_iff.mpr ⟨before.utf8ByteSize, ?_, by simp [less]⟩
  rw [String.toList_append, characterStarts_append, byteLength_toList, Nat.zero_add]
  refine List.mem_append_right _ ?_
  cases characters : after.toList with
  | nil =>
    have empty : after.utf8ByteSize = 0 := by
      rw [← byteLength_toList, characters]
      rfl
    rw [String.utf8ByteSize_append] at le
    omega
  | cons first rest => exact .head _

/-- A line starts where a character begins, or at the end of the text. -/
theorem lineStart_mem_boundaries (offset : Nat) : lineStart source offset ∈ boundaries source := by
  rw [mem_boundaries]
  rcases List.mem_cons.mp (List.mem_of_getElem? (lineTable_getElem? source offset)) with
    first | member
  · exact ⟨"", source, String.empty_append.symm, first⟩
  · obtain ⟨before, after, whole, start⟩ := append_of_mem_lineStarts member
    refine ⟨String.ofList before, String.ofList after, ?_, ?_⟩
    · rw [← String.toList_inj, whole, String.toList_append, String.toList_ofList,
        String.toList_ofList]
    · rw [start, Nat.zero_add, byteLength_eq]

end Text

/-! ### Positions -/

/-- The binary search, given up at an entry outside the table. -/
def bisect? (table : Array Nat) (below : Nat → Bool) (low high : Nat) : Option Nat :=
  if low < high then
    let middle := (low + high) / 2
    match table[middle]? with
    | some entry =>
      if below entry then bisect? table below (middle + 1) high else bisect? table below low middle
    | none => none
  else some low
termination_by high - low

/-- The position of an offset, given up at an entry outside its table and at a difference below
zero. -/
def LineIndex.position? (index : LineIndex) (offset : Nat) : Option Position := do
  let offset := min offset index.size
  let line ← bisect? index.lines (· ≤ offset) 0 index.lines.size
  let lineStart ← index.lines[← line.psub 1]?
  let passed ← bisect? index.characters (· < offset) 0 index.characters.size
  let earlier ← bisect? index.characters (· < lineStart) 0 index.characters.size
  return ⟨offset, line, (← passed.psub earlier) + 1⟩

theorem getElem?_eq_getD {table : Array Nat} {place : Nat} (within : place < table.size) :
    table[place]? = some (table.getD place 0) := by
  rw [Array.getD_eq_getD_getElem?, Array.getElem?_eq_getElem within, Option.getD_some]

theorem bisect?_eq (table : Array Nat) (below : Nat → Bool) {low high : Nat}
    (within : high ≤ table.size) :
    bisect? table below low high = some (bisect table below low high) := by
  fun_induction bisect table below low high with
  | case1 low high more middle passes right =>
    have entry : table[(low + high) / 2]? = _ := getElem?_eq_getD (by omega)
    rw [bisect?, if_pos more]
    simp only [entry]
    exact (if_pos passes).trans (right within)
  | case2 low high more middle fails left =>
    have entry : table[(low + high) / 2]? = _ := getElem?_eq_getD (by omega)
    rw [bisect?, if_pos more]
    simp only [entry]
    exact (if_neg fails).trans (left (by omega))
  | case3 low high none => rw [bisect?, if_neg none]

section Text

variable (source : String)

theorem linesUpTo_eq (offset : Nat) :
    (LineIndex.ofText source).linesUpTo offset = 1 + lineFeedsBefore source offset := by
  rw [LineIndex.linesUpTo, ofText_eq, ← countP_lineTable]
  exact bisect_eq_countP (parted_le (lineTable_increase source) offset)

theorem charactersBefore_eq (offset : Nat) :
    (LineIndex.ofText source).charactersBefore offset = charactersBetween source 0 offset := by
  rw [LineIndex.charactersBefore, ofText_eq, ← countP_characterStarts]
  exact bisect_eq_countP (parted_lt (characterStarts_increase 0 source.toList) offset)

theorem lines_getElem? (offset : Nat) :
    (LineIndex.ofText source).lines[lineFeedsBefore source offset]? =
      some (lineStart source offset) := by
  rw [ofText_eq]
  exact List.getElem?_toArray.trans (lineTable_getElem? source offset)

theorem position_eq (offset : Nat) :
    (LineIndex.ofText source).position offset =
      let place := min offset source.utf8ByteSize
      ⟨place, 1 + lineFeedsBefore source place,
        charactersBetween source (lineStart source place) place + 1⟩ := by
  have size : (LineIndex.ofText source).size = source.utf8ByteSize := by rw [ofText_eq]
  unfold LineIndex.position
  dsimp only
  rw [size]
  generalize min offset source.utf8ByteSize = place
  have characters := charactersBetween_add source (Nat.zero_le _) (lineStart_le source place)
  rw [linesUpTo_eq, Nat.add_sub_cancel_left, Array.getD_eq_getD_getElem?, lines_getElem?,
    Option.getD_some, charactersBefore_eq, charactersBefore_eq, ← characters,
    Nat.add_sub_cancel_left]

/-- Nothing is given up on the way to a position. -/
theorem position?_eq (offset : Nat) :
    (LineIndex.ofText source).position? offset =
      some ((LineIndex.ofText source).position offset) := by
  have size : (LineIndex.ofText source).size = source.utf8ByteSize := by rw [ofText_eq]
  rw [position_eq]
  unfold LineIndex.position?
  dsimp only
  rw [size]
  generalize min offset source.utf8ByteSize = place
  have line := (bisect?_eq (LineIndex.ofText source).lines (· ≤ place) (Nat.le_refl _)).trans
    (congrArg some (linesUpTo_eq source place))
  have before (offset : Nat) := (bisect?_eq (LineIndex.ofText source).characters (· < offset)
    (Nat.le_refl _)).trans (congrArg some (charactersBefore_eq source offset))
  have characters := charactersBetween_add source (Nat.zero_le _) (lineStart_le source place)
  have previous : (1 + lineFeedsBefore source place).psub 1 = some (lineFeedsBefore source place) := by
    rw [Nat.psub_eq_sub (Nat.le_add_right _ _), Nat.add_sub_cancel_left]
  have column : (charactersBetween source 0 place).psub
      (charactersBetween source 0 (lineStart source place)) =
        some (charactersBetween source (lineStart source place) place) := by
    rw [← characters, Nat.psub_eq_sub (Nat.le_add_right _ _), Nat.add_sub_cancel_left]
  simp only [line, before, previous, column, lines_getElem?, Option.bind_eq_bind, Option.bind_some,
    Option.pure_def]

end Text

/-! ### What positions tell -/

/-- The line and the column of an offset. -/
def lineAndColumn (source : String) (offset : Nat) : Nat × Nat :=
  let position := (LineIndex.ofText source).position offset
  (position.line, position.column)

/-- On the boundaries of characters, a greater offset is on a later line, or in a later column. -/
theorem lineAndColumn_increase (source : String) :
    StrictMonoOn (fun offset => toLex (lineAndColumn source offset)) (boundaries source) := by
  intro first valid second valid' less
  have inside : second ≤ source.utf8ByteSize := valid'.le_rawEndPos
  have inside' : first ≤ source.utf8ByteSize := Nat.le_trans (Nat.le_of_lt less) inside
  simp only [lineAndColumn, position_eq, Nat.min_eq_left inside, Nat.min_eq_left inside']
  rw [Prod.Lex.toLex_lt_toLex]
  rcases Nat.lt_or_eq_of_le (lineFeedsBefore_mono source (Nat.le_of_lt less)) with fewer | same
  · exact .inl (Nat.add_lt_add_left fewer 1)
  · have more := charactersBetween_pos source valid less inside
    have split := charactersBetween_add source (lineStart_le source first) (Nat.le_of_lt less)
    refine .inr ⟨congrArg (1 + ·) same, ?_⟩
    simp only [← lineStart_congr source same]
    omega

/-- **Positions are told by the text.** Nothing is given up on the way to the position of an offset,
and what it says can be counted: with the offset, which stands for the end of the text if it is past
that, one more than the line feeds before it, and one more than the characters before it on its line,
which starts where a character does. On the boundaries of characters, lines and columns increase with
the offsets, so they tell these apart. -/
theorem position_locates (source : String) :
    (∀ offset,
      let place := min offset source.utf8ByteSize
      let position := (LineIndex.ofText source).position offset
      (LineIndex.ofText source).position? offset = some position ∧
        position.Locates source place ∧ lineStart source place ∈ boundaries source) ∧
      StrictMonoOn (fun offset => toLex (lineAndColumn source offset)) (boundaries source) ∧
      Set.InjOn (lineAndColumn source) (boundaries source) := by
  refine ⟨fun offset => ⟨position?_eq source offset, ?_, lineStart_mem_boundaries source _⟩,
    lineAndColumn_increase source, fun first valid second valid' same => ?_⟩
  · rw [position_eq]
    exact ⟨rfl, rfl, Nat.add_comm _ _⟩
  · exact (lineAndColumn_increase source).injOn valid valid' (congrArg toLex same)

example : (LineIndex.ofText "a\né").position 3 = ⟨3, 2, 2⟩ := by decide +kernel

end ContractSyntax
