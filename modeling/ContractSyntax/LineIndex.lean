/-
**Line and column numbers of byte offsets.**

A `LineIndex` holds, for one text, the offset at which each character starts and the offset at which
each line starts. Both tables increase, so a position is a few binary searches away. Lines and
columns count from one; a column counts characters and not bytes; an offset past the end stands for
the end.

* `lt_bisect_iff`: a binary search stops after the last entry that passes.
-/

import ContractSyntax.Span

namespace ContractSyntax

/-- A byte offset with its line and column. -/
structure Position where
  offset : Nat
  line : Nat
  column : Nat
  deriving DecidableEq, Inhabited, Repr

/-- Line and column with a colon between them. -/
def Position.text (position : Position) : String := s!"{position.line}:{position.column}"

/-- How many of the entries from `low` up to `high` come before the first that fails `below`,
counted from the start of the table; entries that pass are to precede those that fail. -/
def bisect (table : Array Nat) (below : Nat → Bool) (low high : Nat) : Nat :=
  if low < high then
    let middle := (low + high) / 2
    if below (table.getD middle 0) then bisect table below (middle + 1) high
    else bisect table below low middle
  else low
termination_by high - low

theorem le_bisect (table : Array Nat) (below : Nat → Bool) (low high : Nat) :
    low ≤ bisect table below low high := by
  fun_induction bisect table below low high with
  | case1 low high more middle passes right =>
    have : low ≤ middle := by omega
    omega
  | case2 low high more middle fails left => exact left
  | case3 low high none => exact Nat.le_refl low

theorem bisect_le (table : Array Nat) (below : Nat → Bool) {low high : Nat} (ordered : low ≤ high) :
    bisect table below low high ≤ high := by
  fun_induction bisect table below low high with
  | case1 low high more middle passes right => exact right (by omega)
  | case2 low high more middle fails left => exact Nat.le_trans (left (by omega)) (by omega)
  | case3 low high none => exact ordered

/-- In a table whose entries that pass precede those that fail, the places before the one found are
those of the entries that pass. -/
theorem lt_bisect_iff {table : Array Nat} {below : Nat → Bool}
    (parted : ∀ first second, first ≤ second → second < table.size →
      below (table.getD second 0) = true → below (table.getD first 0) = true)
    {low high place : Nat} (within : high ≤ table.size) (after : low ≤ place)
    (before : place < high) :
    place < bisect table below low high ↔ below (table.getD place 0) = true := by
  fun_induction bisect table below low high with
  | case1 low high more middle passes right =>
    by_cases upper : middle < place
    · exact right within upper before
    · have found := le_bisect table below (middle + 1) high
      exact ⟨fun _ => parted place middle (by omega) (by omega) passes, fun _ => by omega⟩
  | case2 low high more middle fails left =>
    by_cases lower : place < middle
    · exact left (by omega) after lower
    · have found : bisect table below low middle ≤ middle := bisect_le table below (by omega)
      exact ⟨fun _ => by omega,
        fun passes => absurd (parted middle place (by omega) (by omega) passes) fails⟩
  | case3 low high none => omega

/-- The tables from which positions in one text are found. -/
structure LineIndex where
  /-- The length of the text in bytes. -/
  size : Nat
  /-- Where each character starts. -/
  characters : Array Nat
  /-- Where each line starts. -/
  lines : Array Nat
  deriving Inhabited

namespace LineIndex

/-- Enters the characters of the rest of a text, which starts at `size`. -/
def extend (index : LineIndex) : List Char → LineIndex
  | [] => index
  | character :: rest =>
    let next := index.size + character.utf8Size
    extend
      { size := next
        characters := index.characters.push index.size
        lines := if character = '\n' then index.lines.push next else index.lines } rest

/-- The tables of a text given by its characters. -/
def ofList (characters : List Char) : LineIndex := extend ⟨0, #[], #[0]⟩ characters

/-- The tables of a text. -/
def ofText (text : String) : LineIndex := ofList text.toList

/-- The number of lines, one more than there are line feeds. -/
def lineCount (index : LineIndex) : Nat := index.lines.size

/-- How many characters start before `offset`. -/
def charactersBefore (index : LineIndex) (offset : Nat) : Nat :=
  bisect index.characters (· < offset) 0 index.characters.size

/-- How many lines start at or before `offset`. -/
def linesUpTo (index : LineIndex) (offset : Nat) : Nat :=
  bisect index.lines (· ≤ offset) 0 index.lines.size

/-- The position of an offset. Inside a character, the column counts that character as passed. -/
def position (index : LineIndex) (offset : Nat) : Position :=
  let offset := min offset index.size
  let line := index.linesUpTo offset
  let lineStart := index.lines.getD (line - 1) 0
  ⟨offset, line, index.charactersBefore offset - index.charactersBefore lineStart + 1⟩

end LineIndex

end ContractSyntax
