/-
**The counters that keep the nesting within its limit.**

A run counts the level it is at and the deepest level that the part it reads has reached. A part one
level deeper starts from its own level; a chain starts from the level it is at, and each of its links
goes one level above the deepest point of the chain so far. Behind a part, whether it was read or
not, the level is the one before it, and the deepest level takes that of the part in.

* `Nesting.Climbs.trans`: one part after another is as high as the higher of them;
* `Nesting.Climbs.deeper`: a part one level deeper is a level higher than what is in it;
* `Nesting.Chains.link`, `Nesting.Chains.behind`: a link of a chain, and the chain as a whole.
-/

import ContractSyntax.Parser.SyntaxError

namespace ContractSyntax

/-- The counters of a run. -/
structure Nesting where
  /-- The level of what is being read. -/
  depth : Nat
  /-- The deepest level reached inside the part that is being read. -/
  peak : Nat
  /-- The deepest level that was ever entered. It is only kept, never asked for. -/
  deepest : Nat
  deriving DecidableEq, Inhabited, Repr

namespace Nesting

/-- The counters before anything is read. -/
def outermost : Nesting := ⟨0, 0, 0⟩

/-- The counters at another level. Every change of the level is made here. -/
def enter (nesting : Nesting) (depth : Nat) : Nesting :=
  { nesting with depth, deepest := max nesting.deepest depth }

/-- One level deeper, unless that would exceed the limit. -/
def descend? (nesting : Nesting) : Option Nesting :=
  if nestingLimit ≤ nesting.depth then none
  else
    let deeper := nesting.enter (nesting.depth + 1)
    some { deeper with peak := max deeper.peak deeper.depth }

/-- The counters of a part that starts where the level is. -/
def part (nesting : Nesting) : Nesting := { nesting with peak := nesting.depth }

/-- At the deepest point of the part so far. -/
def atPeak (nesting : Nesting) : Nesting := nesting.enter nesting.peak

/-- The counters behind a part, given those at its end. -/
def behind (outer inner : Nesting) : Nesting :=
  { inner.enter outer.depth with peak := max inner.peak outer.peak }

/-! ### What a run does to the counters -/

/-- Whether no counter is beyond the limit. -/
structure Within (nesting : Nesting) : Prop where
  depth : nesting.depth ≤ nestingLimit
  peak : nesting.peak ≤ nestingLimit
  deepest : nesting.deepest ≤ nestingLimit

/-- What holds of the counters behind a run, however it ended. -/
structure Settles (before after : Nesting) : Prop where
  depth : after.depth = before.depth
  peak : before.peak ≤ after.peak
  within : before.Within → after.Within

/-- What holds of the counters behind a run that opened some levels and succeeded. -/
structure Climbs (height : Nat) (before after : Nesting) : Prop extends Settles before after where
  reached : max after.peak after.depth = max before.peak (before.depth + height)

theorem within_outermost : outermost.Within := ⟨Nat.zero_le _, Nat.zero_le _, Nat.zero_le _⟩

variable {before middle after inner nesting below : Nesting} {height more : Nat}

theorem Within.enter (within : nesting.Within) {depth : Nat} (fits : depth ≤ nestingLimit) :
    (nesting.enter depth).Within :=
  ⟨fits, within.peak, Nat.max_le.mpr ⟨within.deepest, fits⟩⟩

theorem Within.behind (within : before.Within) (ended : inner.Within) :
    (before.behind inner).Within where
  depth := within.depth
  peak := Nat.max_le.mpr ⟨ended.peak, within.peak⟩
  deepest := (ended.enter within.depth).deepest

theorem Within.part (within : nesting.Within) : nesting.part.Within :=
  ⟨within.depth, within.depth, within.deepest⟩

@[refl] theorem Settles.refl (nesting : Nesting) : nesting.Settles nesting :=
  ⟨rfl, Nat.le_refl _, id⟩

theorem Settles.trans (first : before.Settles middle) (second : middle.Settles after) :
    before.Settles after :=
  ⟨second.depth.trans first.depth, Nat.le_trans first.peak second.peak,
    fun within => second.within (first.within within)⟩

theorem Climbs.refl (nesting : Nesting) : nesting.Climbs 0 nesting where
  toSettles := .refl nesting
  reached := rfl

theorem Climbs.trans (first : before.Climbs height middle) (second : middle.Climbs more after) :
    before.Climbs (max height more) after where
  toSettles := first.toSettles.trans second.toSettles
  reached := by
    have start := first.reached
    have stop := second.reached
    have levels := first.depth
    omega

/-! ### One level deeper -/

theorem descend?_eq_none_iff : nesting.descend? = none ↔ nestingLimit ≤ nesting.depth := by
  unfold descend?
  split
  · next full => exact ⟨fun _ => full, fun _ => rfl⟩
  · next free => exact ⟨fun none => (by cases none), fun full => absurd full free⟩

theorem descend?_isSome (descended : nesting.descend? = some below) :
    nesting.depth < nestingLimit ∧ below.depth = nesting.depth + 1 ∧
      below.peak = max nesting.peak (nesting.depth + 1) ∧ (nesting.Within → below.Within) := by
  unfold descend? at descended
  split at descended
  · cases descended
  · next free =>
    cases descended
    have fits := Nat.lt_of_not_le free
    exact ⟨fits, rfl, rfl, fun within =>
      ⟨fits, Nat.max_le.mpr ⟨within.peak, fits⟩, (within.enter fits).deepest⟩⟩

/-- Behind a part the counters have settled, however it ended. -/
theorem settles_behind (within : before.Within → inner.Within) :
    before.Settles (before.behind inner) where
  depth := rfl
  peak := Nat.le_max_right _ _
  within valid := valid.behind (within valid)

/-- A part one level deeper adds a level to those that were opened in it. -/
theorem Climbs.deeper (descended : before.descend? = some below)
    (ran : below.part.Climbs height inner) : before.Climbs (height + 1) (before.behind inner) := by
  obtain ⟨_, level, _, within⟩ := descend?_isSome descended
  refine ⟨settles_behind fun valid => ran.within (within valid).part, ?_⟩
  have start : inner.depth = before.depth + 1 := ran.depth.trans level
  have above : before.depth + 1 ≤ inner.peak := level ▸ ran.peak
  have reached := ran.reached
  simp only [part, level, start] at reached
  show max (max inner.peak before.peak) before.depth = _
  omega

/-! ### Chains -/

/-- What holds inside a chain that is `height` levels high so far. The level itself is left where the
last link was. -/
structure Chains (height : Nat) (before nesting : Nesting) : Prop where
  peak : nesting.peak = before.depth + height
  within : before.Within → nesting.Within

theorem Climbs.chains (ran : before.part.Climbs height inner) : before.Chains height inner where
  peak := by
    have start : inner.depth = before.depth := ran.depth
    have above : before.depth ≤ inner.peak := ran.peak
    have reached := ran.reached
    simp only [part, start] at reached
    omega
  within valid := ran.within valid.part

/-- There is no link above a chain that is as high as the levels that are left. -/
theorem Chains.full (chain : before.Chains height nesting)
    (ended : nesting.atPeak.descend? = none) : ¬ height < nestingLimit - before.depth := by
  have top : nesting.atPeak.depth = before.depth + height := chain.peak
  have full := descend?_eq_none_iff.mp ended
  omega

/-- The counters at a link, one level above the chain so far. -/
theorem Chains.at_link (chain : before.Chains height nesting)
    (descended : nesting.atPeak.descend? = some below) :
    height < nestingLimit - before.depth ∧ below.depth = before.depth + (height + 1) ∧
      below.peak = below.depth ∧ (before.Within → below.Within) := by
  obtain ⟨free, level, peak, within⟩ := descend?_isSome descended
  have top : nesting.atPeak.depth = before.depth + height := chain.peak
  have top' : nesting.atPeak.peak = before.depth + height := chain.peak
  refine ⟨by omega, by omega, by omega, fun valid => within ?_⟩
  have inside := chain.within valid
  exact inside.enter inside.peak

/-- A link raises the deepest point, so that there is less room for the next one. -/
theorem sub_peak_lt (descended : nesting.atPeak.descend? = some below) (ran : below.Settles inner) :
    nestingLimit - inner.peak < nestingLimit - nesting.peak := by
  obtain ⟨free, _, peak, _⟩ := descend?_isSome descended
  have top : nesting.atPeak.depth = nesting.peak := rfl
  have higher := ran.peak
  omega

/-- A link adds a level to the chain and those that were opened in it. -/
theorem Chains.link (chain : before.Chains height nesting)
    (descended : nesting.atPeak.descend? = some below) (ran : below.Climbs more inner) :
    before.Chains (height + 1 + more) inner := by
  obtain ⟨_, level, peak, within⟩ := chain.at_link descended
  refine ⟨?_, fun valid => ran.within (within valid)⟩
  have reached := ran.reached
  have above := ran.peak
  have start := ran.depth
  omega

/-- Behind a chain its height counts. -/
theorem Chains.behind (chain : before.Chains height inner) :
    before.Climbs height (before.behind inner) where
  toSettles := settles_behind chain.within
  reached := by
    have top := chain.peak
    show max (max inner.peak before.peak) before.depth = _
    omega

end Nesting

end ContractSyntax
