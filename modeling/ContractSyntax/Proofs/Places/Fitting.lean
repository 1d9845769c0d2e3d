/-
**Outlines over tokens.**

Outlines fit tokens if they lie between any two offsets between which the tokens lie. A span fits if,
besides, the tokens lie between its ends. Both are put together along with the tokens, so that the
outline of a construct is found from those of its parts without looking at any offset.

* `Spans.merge`: the span from the first of some parts to the last;
* `Fits.node`: a node fits its tokens if its children do;
* `Fits.row`: the members of a row one after the other.
-/

import ContractSyntax.Proofs.Lexing.Places
import ContractSyntax.Proofs.Places.Outline

namespace ContractSyntax

open Outline

/-! ### Spans -/

/-- Whether a span encloses tokens and lies wherever they lie. -/
def Spans (tokens : Tokens) (span : Span) : Prop :=
  ∀ low high, tokens.Between low high →
    low ≤ span.start ∧ tokens.Between span.start span.stop ∧ span.stop ≤ high

namespace Spans

variable {first last tokens : Tokens} {span before after : Span}

theorem token (token : Token) (span : Span) : Spans [⟨token, span⟩] span := by
  rintro low high ⟨start, some, stop⟩
  exact ⟨start, ⟨Nat.le_refl _, some, Nat.le_refl _⟩, stop⟩

theorem merge (spans : Spans first before) (middle : Tokens) (spans' : Spans last after) :
    Spans (first ++ (middle ++ last)) (before.merge after) := by
  intro low high between
  obtain ⟨one, between, others⟩ := Tokens.between_append.mp between
  obtain ⟨two, gap, others⟩ := Tokens.between_append.mp others
  obtain ⟨start, inner, stop⟩ := spans low one between
  obtain ⟨start', inner', stop'⟩ := spans' two high others
  have le := inner.le
  have le' := inner'.le
  have later := gap.le
  have same : before.merge after = ⟨before.start, after.stop⟩ := by
    rw [Span.merge, Nat.min_eq_left (by omega), Nat.max_eq_right (by omega)]
  rw [same]
  refine ⟨start, Tokens.between_append.mpr ⟨one, ?_, Tokens.between_append.mpr ⟨two, gap, ?_⟩⟩, stop'⟩
  · exact inner.mono (Nat.le_refl _) stop
  · exact inner'.mono start' (Nat.le_refl _)

/-- The span from the first token to the last. -/
theorem enclosed (opening closing : Token) (start stop : Span) (tokens : Tokens) :
    Spans (⟨opening, start⟩ :: (tokens ++ [⟨closing, stop⟩])) (start.merge stop) :=
  (token opening start).merge tokens (token closing stop)

/-- The span from the first token to the end of the last part. -/
theorem leading (opening : Token) (start : Span) (middle : Tokens) (spans : Spans last after) :
    Spans (⟨opening, start⟩ :: (middle ++ last)) (start.merge after) :=
  (token opening start).merge middle spans

/-- The span from the first part to the last token. -/
theorem closing (spans : Spans first before) (middle : Tokens) (closing : Token) (stop : Span) :
    Spans (first ++ (middle ++ [⟨closing, stop⟩])) (before.merge stop) :=
  spans.merge middle (token closing stop)

/-- A span over tokens begins where the first does and ends where the last does. -/
theorem ends {place : Spanned Token} {rest : Tokens} {low high : Nat}
    (spans : Spans (place :: rest) span) (between : Tokens.Between low high (place :: rest)) :
    span.start = place.span.start ∧ span.stop = Cursor.stopAfter low (place :: rest) := by
  obtain ⟨⟨_, some, inner⟩, _⟩ := between.tight
  obtain ⟨start, enclosed, stop⟩ := spans place.span.start _ ⟨Nat.le_refl _, some, inner⟩
  exact ⟨Nat.le_antisymm enclosed.1 start, Nat.le_antisymm stop enclosed.tight.2⟩

end Spans

/-! ### Outlines -/

/-- Whether outlines lie wherever tokens lie, if none of their nodes ends loosely. -/
def Fits (tokens : Tokens) (outlines : List Outline) : Prop :=
  ∀ low high, tokens.Between low high → Tidy outlines → Within low high outlines

namespace Fits

variable {tokens first second : Tokens} {outlines others : List Outline} {span : Span}
  {kind : NodeKind}

theorem nil : Fits [] [] := fun _ _ between _ => .nil between

theorem append (before : Fits first outlines) (after : Fits second others) :
    Fits (first ++ second) (outlines ++ others) := by
  intro low high between tidy
  obtain ⟨middle, between, between'⟩ := Tokens.between_append.mp between
  obtain ⟨tidy, tidy'⟩ := Tidy.append_iff.mp tidy
  exact (before low middle between tidy).append (after middle high between' tidy')

/-- A token that is no part of the tree. -/
theorem skip (place : Spanned Token) (after : Fits tokens outlines) :
    Fits (place :: tokens) outlines := by
  rintro low high ⟨start, some, between⟩ tidy
  exact (after _ high between tidy).mono (Nat.le_trans start (Nat.le_of_lt some)) (Nat.le_refl _)

/-- Tokens that are no part of the tree. -/
theorem gap (tokens : Tokens) : Fits tokens [] := by
  induction tokens with
  | nil => exact .nil
  | cons place rest continued => exact continued.skip place

theorem node (spans : Spans tokens span) (below : Fits tokens outlines) :
    Fits tokens [.node span kind outlines] := by
  intro low high between tidy
  obtain ⟨start, between, stop⟩ := spans low high between
  exact .cons start (below _ _ between (Tidy.cons_iff.mp tidy).2.1) (.nil stop)

/-- A token after others. -/
theorem closed (fits : Fits tokens outlines) (place : Spanned Token) :
    Fits (tokens ++ [place]) outlines := by
  have whole := fits.append (.gap [place])
  rwa [List.append_nil] at whole

theorem name (name : Name) : Fits [name.ident] [ofName name] :=
  .node (.token _ _) (.gap _)

/-- Before what follows a name. -/
theorem named (name : Name) (after : Fits tokens outlines) :
    Fits (name.ident :: tokens) (ofName name :: outlines) :=
  (Fits.name name).append after

/-- The members of a row, with what else follows. -/
theorem row {α : Type} {source : α → Tokens} {outline : α → List Outline} {values : List α}
    (row : Commas (values.map source) tokens)
    (each : ∀ value ∈ values, Fits (source value) (outline value)) :
    Fits tokens (values.flatMap outline) := by
  induction values generalizing tokens with
  | nil =>
    cases row
    exact .nil
  | cons value values continued =>
    have here := each value List.mem_cons_self
    generalize same : (value :: values).map source = lists at row
    cases row with
    | none => cases same
    | last =>
      injection same with same none
      obtain rfl := List.map_eq_nil_iff.mp none
      subst same
      rwa [List.flatMap_cons, List.flatMap_nil, List.append_nil]
    | more _ comma rest =>
      injection same with same others
      subst same others
      exact here.append
        (.skip _ (continued rest fun member inside => each member (List.mem_cons_of_mem _ inside)))

/-- The members of a row with one outline each. -/
theorem members {α : Type} {source : α → Tokens} {outline : α → Outline} {values : List α}
    (row : Commas (values.map source) tokens)
    (each : ∀ value ∈ values, Fits (source value) [outline value]) :
    Fits tokens (values.map outline) := by
  rw [List.map_eq_flatMap]
  exact .row row each

/-- The members of a list. -/
theorem parts {α : Type} {parts : List (Part α)} {outline : α → List Outline}
    (row : Commas (parts.map Part.tokens) tokens)
    (each : ∀ part ∈ parts, Fits part.tokens (outline part.value)) :
    Fits tokens ((parts.map Part.value).flatMap outline) := by
  rw [List.flatMap_map]
  exact .row row each

end Fits

/-! ### Outlines up to the next token -/

/-- Whether outlines lie wherever tokens from `before` on lie, or end in the empty rest of a block,
before the token that starts at `next`. -/
def FitsBefore (before next : Nat) (tokens : Tokens) (outlines : List Outline)
    (rest : Option Nat) : Prop :=
  ∀ low high, before ≤ low → high ≤ next → tokens.Between low high → Tidy outlines →
    Within low high outlines ∨ (rest = some next ∧ Within low next outlines)

variable {tokens first second : Tokens} {outlines others : List Outline} {before next : Nat}
  {rest : Option Nat}

theorem Fits.fitsBefore (fits : Fits tokens outlines) : FitsBefore before next tokens outlines rest :=
  fun _ _ _ _ between tidy => .inl (fits _ _ between tidy)

namespace FitsBefore

theorem prepend (fits : Fits first outlines) (fits' : FitsBefore before next second others rest) :
    FitsBefore before next (first ++ second) (outlines ++ others) rest := by
  intro low high le le' between tidy
  obtain ⟨middle, between, between'⟩ := Tokens.between_append.mp between
  obtain ⟨tidy, tidy'⟩ := Tidy.append_iff.mp tidy
  have here := fits low middle between tidy
  rcases fits' middle high (Nat.le_trans le between.le) le' between' tidy' with behind | behind
  · exact .inl (here.append behind)
  · exact .inr ⟨behind.1, here.append behind.2⟩

/-- A token that ends at `stop` or later has what follows it lie from there on. -/
theorem after (place : Spanned Token) (stop : before ≤ place.span.stop)
    (fits : FitsBefore before next tokens outlines rest) :
    FitsBefore 0 next (place :: tokens) outlines rest := by
  rintro low high - le' ⟨start, some, between⟩ tidy
  have begins := Nat.le_trans start (Nat.le_of_lt some)
  rcases fits place.span.stop high stop le' between tidy with behind | behind
  · exact .inl (behind.mono begins (Nat.le_refl _))
  · exact .inr ⟨behind.1, behind.2.mono begins (Nat.le_refl _)⟩

/-- What lies before the token that ends a block lies in the block. -/
theorem enclosed {place stop : Spanned Token}
    (fits : FitsBefore 0 stop.span.start tokens outlines rest) :
    Fits (place :: (tokens ++ [stop])) outlines := by
  rintro low high ⟨start, some, between⟩ tidy
  obtain ⟨middle, between, ends, some', last⟩ := Tokens.between_append.mp between
  have inner : Within place.span.stop stop.span.start outlines := by
    rcases fits _ _ (Nat.zero_le _) ends between tidy with within | within
    · exact within.mono (Nat.le_refl _) ends
    · exact within.2
  exact inner.mono (Nat.le_trans start (Nat.le_of_lt some))
    (Nat.le_trans (Nat.le_of_lt some') last)

end FitsBefore

end ContractSyntax
