/-
**Spans: where a piece of source text lies.**

Offsets count bytes of the UTF-8 text. A span carries its two ends without any order between them,
so that a caller may also name an inverted range; such a range has length zero.

* `Span.merge_assoc`, `Span.merge_comm`: merging spans is a commutative semigroup;
* `Span.merge_self`: and idempotent.
-/

namespace ContractSyntax

/-- A range of byte offsets, from `start` up to but without `stop`. -/
structure Span where
  start : Nat
  stop : Nat
  deriving DecidableEq, Inhabited, Repr

namespace Span

/-- The empty span at `offset`. -/
def point (offset : Nat) : Span := ⟨offset, offset⟩

/-- The lesser start together with the greater stop. -/
def merge (first second : Span) : Span :=
  ⟨min first.start second.start, max first.stop second.stop⟩

/-- The number of bytes covered, zero for an inverted range. -/
def length (span : Span) : Nat := span.stop - span.start

/-- Whether no byte is covered. -/
def isEmpty (span : Span) : Bool := span.length == 0

/-- The range with its ends exchanged. -/
def swap (span : Span) : Span := ⟨span.stop, span.start⟩

/-- The ends with two dots between them. -/
def text (span : Span) : String := s!"{span.start}..{span.stop}"

theorem merge_comm (first second : Span) : first.merge second = second.merge first := by
  simp only [merge, Nat.min_comm, Nat.max_comm]

theorem merge_assoc (first second third : Span) :
    (first.merge second).merge third = first.merge (second.merge third) := by
  simp only [merge, Nat.min_assoc, Nat.max_assoc]

@[simp] theorem merge_self (span : Span) : span.merge span = span := by
  simp [merge]

@[simp] theorem swap_swap (span : Span) : span.swap.swap = span := rfl

end Span

/-- A value together with the span of the text it was read from. -/
structure Spanned (α : Type) where
  node : α
  span : Span
  deriving DecidableEq, Inhabited, Repr

namespace Spanned

/-- The same place with another value. -/
def map {α β : Type} (change : α → β) (place : Spanned α) : Spanned β :=
  ⟨change place.node, place.span⟩

end Spanned

/-- A name with its place. -/
abbrev Name := Spanned String

end ContractSyntax
