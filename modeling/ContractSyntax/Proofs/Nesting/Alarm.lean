/-
**When the nesting of an expression is too deep.**

Reading an infix operator or a suffix opens its level on top of the deepest level of all that was read
of the chain before it, and the right operand or the arguments are read from there. So the levels that
the text of an expression opens are not its height: what is on the right is charged with what is on
the left, which it does not hang below. An expression that is far from high may have a text that is
beyond the limit of nesting.

* `nesting_alarm_iff`: how many levels the text of an expression opens, and what comes of it;
* `false_alarm`: an expression half as high as the limit whose text is beyond the limit.
-/

import ContractSyntax.Proofs.Nesting.Gauge
import ContractSyntax.Proofs.Printing.Reread

namespace ContractSyntax

/-! ### Sums of products -/

theorem isName_a : IsName "a" := by decide +kernel

/-- A product with as many operators: `a * a * a`. -/
def product : Nat → Spanned Expr
  | 0 => ⟨.var "a", nowhere⟩
  | count + 1 => ⟨.binary (product count) .multiply ⟨.var "a", nowhere⟩, nowhere⟩

/-- The sum of two equal products. -/
def sumOfProducts (count : Nat) : Spanned Expr :=
  ⟨.binary (product count) .add (product count), nowhere⟩

theorem shaped_product (count : Nat) :
    6 ≤ (product count).node.power ∧ (product count).node.Shaped .bare .value := by
  induction count with
  | zero => exact ⟨by decide, isName_a⟩
  | succ count continued =>
    obtain ⟨tight, shaped⟩ := continued
    exact ⟨Nat.le_refl 6, Demand.bare_of_le (by decide) tight,
      Demand.bare_of_le (by decide) (show 7 ≤ 8 by decide), shaped, isName_a⟩

theorem shaped_sumOfProducts (count : Nat) : (sumOfProducts count).node.Shaped .bare .value := by
  obtain ⟨tight, shaped⟩ := shaped_product count
  exact ⟨Demand.bare_of_le (by decide) (Nat.le_of_succ_le tight),
    Demand.bare_of_le (by decide) tight, shaped, shaped⟩

theorem gauged_product (count : Nat) :
    (product count).node.gauged .nodes = count ∧ (product count).node.gauged .levels = count := by
  induction count with
  | zero => exact ⟨rfl, rfl⟩
  | succ count continued =>
    obtain ⟨nodes, levels⟩ := continued
    simp only [product, Expr.gauged, Gauge.nodes, Gauge.levels] at nodes levels ⊢
    omega

/-- The sum is one node higher than its operands, and opens the levels of both. -/
theorem gauged_sumOfProducts (count : Nat) :
    exprGauged .nodes (sumOfProducts count) = count + 2 ∧
      exprGauged .levels (sumOfProducts count) = 2 * count + 2 := by
  obtain ⟨nodes, levels⟩ := gauged_product count
  simp only [sumOfProducts, exprGauged, Expr.gauged, Gauge.nodes, Gauge.levels] at nodes levels ⊢
  omega

/-! ### Levels and height -/

/-- The text of an expression whose operands bind as tightly as their places demand is beyond the
limit of nesting exactly if the levels of the expression are. Otherwise it is read as the expression
but for its spans. -/
theorem nesting_alarm_iff {expr : Spanned Expr} (shaped : expr.node.Shaped .bare .value) :
    ((∃ error, (readExpr expr.node.text).value = .error (.syntactic error) ∧
      error.message = "nesting deeper than 256 levels") ↔
        nestingLimit < exprGauged .levels expr) ∧
    (exprGauged .levels expr ≤ nestingLimit →
      ∃ found, (readExpr expr.node.text).value = .ok found ∧ erase found = erase expr) := by
  rcases shaped.givesBack with ⟨fits, found, read, same⟩ | ⟨large, error, failed, message⟩
  · refine ⟨iff_of_false ?_ (Nat.not_lt.mpr fits), fun _ => ⟨found, read, same⟩⟩
    rintro ⟨error, failed, _⟩
    cases read.symm.trans failed
  · exact ⟨iff_of_true ⟨error, failed, message⟩ large,
      fun fits => absurd fits (Nat.not_le.mpr large)⟩

theorem nesting_alarm_iff_of_sum :
    (sumOfProducts 2).node.text = "a * a * a + a * a * a" ∧
      ((∃ error, (readExpr (sumOfProducts 2).node.text).value = .error (.syntactic error) ∧
        error.message = "nesting deeper than 256 levels") ↔ nestingLimit < 6) ∧
      (6 ≤ nestingLimit → ∃ found, (readExpr (sumOfProducts 2).node.text).value = .ok found ∧
        erase found = erase (sumOfProducts 2)) :=
  ⟨by decide +kernel, nesting_alarm_iff (shaped_sumOfProducts 2)⟩

/-- Products of 129 factors are within the limit of nesting, and so is the height of the sum of two of
them. Its text is beyond the limit. -/
theorem false_alarm :
    (sumOfProducts 128).node.Shaped .bare .value ∧
      exprGauged .nodes (sumOfProducts 128) ≤ nestingLimit ∧
      ∃ error, (readExpr (sumOfProducts 128).node.text).value = .error (.syntactic error) ∧
        error.message = "nesting deeper than 256 levels" := by
  obtain ⟨nodes, levels⟩ := gauged_sumOfProducts 128
  have shaped := shaped_sumOfProducts 128
  refine ⟨shaped, nodes ▸ by decide, ?_⟩
  rcases shaped.givesBack with ⟨fits, _⟩ | ⟨_, alarm⟩
  · rw [levels] at fits
    exact absurd fits (by decide)
  · exact alarm

end ContractSyntax
