/-
**What reading a tree costs.**

The counters of a parser are saved, raised and put back many times while an expression is read: for a
part one level deeper, for the links of a chain, for the chains in the operands of a chain. What comes
of all that is one number for each tree, which is told from the tree alone. A tree costs one more than
the dearest of its parts, but for operators and suffixes: these add up what they stand between. An
expression is read if the levels that are left pay for it, wherever it stands and whatever was read
before it, and reading it raises the counters by just what it costs.

* `Expr.cost`, `Ty.cost`: what reading an expression or a type costs;
* `Expr.cost_eq`, `Ty.cost_eq`: these are the levels that reading opens;
* `Session.Pays`, `Expr.Shaped.pays`: what a session does with an expression, whatever stands behind it;
* `read_iff_cost_le`: the expressions whose texts are read.
-/

import ContractSyntax.Proofs.Nesting.Alarm

namespace ContractSyntax

mutual

/-- What reading an expression costs. -/
def Expr.cost : Expr → Nat
  | .int _ | .float _ | .string _ | .bool _ | .unit | .var _ | .ret | .it | .variant _ _ none => 1
  | .paren ⟨inner, _⟩ | .unary _ ⟨inner, _⟩ => inner.cost + 1
  | .call _ given | .array given | .variant _ _ (some given) => dearest given + 1
  | .construct _ fields => dearestField fields + 1
  | .conditional ⟨condition, _⟩ ⟨yes, _⟩ ⟨no, _⟩ => max condition.cost (max yes.cost no.cost) + 1
  | .matching ⟨subject, _⟩ arms => max subject.cost (dearestArm arms) + 1
  | .whileLoop ⟨condition, _⟩ ⟨body, _⟩ => max condition.cost body.cost + 1
  | .forLoop _ ⟨range, _⟩ ⟨body, _⟩ => max range.cost body.cost + 1
  | .block statements none => dearest statements + 1
  | .block statements (some ⟨last, _⟩) => max (dearest statements) last.cost + 1
  | .assign _ ⟨value, _⟩ => value.cost
  | .binding _ _ none ⟨value, _⟩ ⟨body, _⟩ => max value.cost body.cost + 1
  | .binding _ _ (some ⟨type, _⟩) ⟨value, _⟩ ⟨body, _⟩ => max type.cost (max value.cost body.cost) + 1
  | .binary ⟨left, _⟩ _ ⟨right, _⟩ => left.cost + right.cost
  | .field ⟨receiver, _⟩ _ | .state ⟨receiver, _⟩ _ => receiver.cost + 1
  | .methodCall ⟨receiver, _⟩ _ given => receiver.cost + 1 + dearest given
  | .index ⟨receiver, _⟩ ⟨position, _⟩ => receiver.cost + 1 + position.cost

/-- What reading a type costs. -/
def Ty.cost : Ty → Nat
  | .reference target | .mutableReference target => target.cost + 1
  | .array element _ => element.cost + 1
  | .refined _ constraints => dearest constraints + 1
  | .primitive _ | .unit | .named _ => 1

/-- What the dearest of some expressions costs. -/
def dearest : List (Spanned Expr) → Nat
  | [] => 0
  | ⟨expr, _⟩ :: rest => max expr.cost (dearest rest)

/-- What the dearest value among some alternatives costs. -/
def dearestArm : List MatchArm → Nat
  | [] => 0
  | .mk _ ⟨body, _⟩ :: rest => max body.cost (dearestArm rest)

/-- What the dearest value among some fields costs. -/
def dearestField : List FieldValue → Nat
  | [] => 0
  | .mk _ ⟨value, _⟩ :: rest => max value.cost (dearestField rest)

end

/-! ### Costs are levels -/

mutual

/-- An expression costs as many levels as reading it opens. -/
theorem Expr.cost_eq : ∀ expr : Expr, expr.cost = expr.gauged .levels + 1
  | .int _ | .float _ | .string _ | .bool _ | .unit | .var _ | .ret | .it | .variant _ _ none => rfl
  | .paren ⟨inner, _⟩ | .unary _ ⟨inner, _⟩ => congrArg (· + 1) inner.cost_eq
  | .call _ given | .array given | .variant _ _ (some given) => congrArg (· + 1) (dearest_eq given)
  | .construct _ fields => congrArg (· + 1) (dearestField_eq fields)
  | .conditional ⟨condition, _⟩ ⟨yes, _⟩ ⟨no, _⟩ => by
    simp only [Expr.cost, Expr.gauged, condition.cost_eq, yes.cost_eq, no.cost_eq]
  | .matching ⟨subject, _⟩ arms => by
    simp only [Expr.cost, Expr.gauged, subject.cost_eq, dearestArm_eq arms]
  | .whileLoop ⟨condition, _⟩ ⟨body, _⟩ => by
    simp only [Expr.cost, Expr.gauged, condition.cost_eq, body.cost_eq]
  | .forLoop _ ⟨range, _⟩ ⟨body, _⟩ => by
    simp only [Expr.cost, Expr.gauged, range.cost_eq, body.cost_eq]
  | .block statements none => by
    simp only [Expr.cost, Expr.gauged, dearest_eq statements, Nat.max_zero]
  | .block statements (some ⟨last, _⟩) => by
    simp only [Expr.cost, Expr.gauged, dearest_eq statements, last.cost_eq]
  | .assign _ ⟨value, _⟩ => value.cost_eq
  | .binding _ _ none ⟨value, _⟩ ⟨body, _⟩ => by
    simp only [Expr.cost, Expr.gauged, value.cost_eq, body.cost_eq, Nat.zero_max]
  | .binding _ _ (some ⟨type, _⟩) ⟨value, _⟩ ⟨body, _⟩ => by
    simp only [Expr.cost, Expr.gauged, type.cost_eq, value.cost_eq, body.cost_eq]
  | .binary ⟨left, _⟩ _ ⟨right, _⟩ => by
    simp only [Expr.cost, Expr.gauged, Gauge.levels, left.cost_eq, right.cost_eq]
    omega
  | .field ⟨receiver, _⟩ _ | .state ⟨receiver, _⟩ _ => congrArg (· + 1) receiver.cost_eq
  | .methodCall ⟨receiver, _⟩ _ given => by
    simp only [Expr.cost, Expr.gauged, Gauge.levels, receiver.cost_eq, dearest_eq given]
    omega
  | .index ⟨receiver, _⟩ ⟨position, _⟩ => by
    simp only [Expr.cost, Expr.gauged, Gauge.levels, receiver.cost_eq, position.cost_eq]
    omega

/-- A type costs as many levels as reading it opens. -/
theorem Ty.cost_eq : ∀ type : Ty, type.cost = type.gauged .levels + 1
  | .reference target | .mutableReference target => congrArg (· + 1) target.cost_eq
  | .array element _ => congrArg (· + 1) element.cost_eq
  | .refined _ constraints => congrArg (· + 1) (dearest_eq constraints)
  | .primitive _ | .unit | .named _ => rfl

theorem dearest_eq : ∀ exprs : List (Spanned Expr), dearest exprs = gaugedExprs .levels exprs
  | [] => rfl
  | ⟨expr, _⟩ :: rest => by simp only [dearest, gaugedExprs, expr.cost_eq, dearest_eq rest]

theorem dearestArm_eq : ∀ arms : List MatchArm, dearestArm arms = gaugedArms .levels arms
  | [] => rfl
  | .mk _ ⟨body, _⟩ :: rest => by
    simp only [dearestArm, gaugedArms, MatchArm.gauged, body.cost_eq, dearestArm_eq rest]

theorem dearestField_eq : ∀ fields : List FieldValue, dearestField fields = gaugedFields .levels fields
  | [] => rfl
  | .mk _ ⟨value, _⟩ :: rest => by
    simp only [dearestField, gaugedFields, FieldValue.gauged, value.cost_eq, dearestField_eq rest]

end

/-! ### Positions looked up in positions -/

/-- A position that is itself looked up, and so on: `a[a[a]]`. -/
def lookups : Nat → Spanned Expr
  | 0 => ⟨.var "a", nowhere⟩
  | count + 1 => ⟨.index ⟨.var "a", nowhere⟩ (lookups count), nowhere⟩

theorem shaped_lookups (count : Nat) : (lookups count).node.Shaped .bare .value := by
  induction count with
  | zero => exact isName_a
  | succ count continued =>
    exact ⟨Demand.bare_of_le (by decide) (Nat.le_refl operandPower), isName_a, continued⟩

theorem cost_lookups (count : Nat) : (lookups count).node.cost = 2 * count + 1 := by
  induction count with
  | zero => rfl
  | succ count continued =>
    simp only [lookups, Expr.cost] at continued ⊢
    omega

/-! ### What is paid where -/

/-- Whether a session reads a tree, but for its spans, and goes on before the rest of its tokens with
its counters raised by some levels if there are so many left, and finds the nesting too deep otherwise. -/
def Session.Pays {α : Type} [Relocate α] (parser : Parser α) (session : Session) (tree : α)
    (levels : Nat) (rest : List Token) : Prop :=
  (session.nesting.depth + levels ≤ nestingLimit ∧
    (∃ found, (session.read parser).1 = .ok found ∧ erase found = erase tree) ∧
    (session.read parser).2.cursor.remaining.map Spanned.node = rest ∧
    session.nesting.Climbs levels (session.read parser).2.nesting) ∨
  (nestingLimit < session.nesting.depth + levels ∧
    ∃ error, (session.read parser).1 = .error error ∧ error.cause = .tooDeep)

/-- What a parser takes in the room that is left is read in the session. -/
theorem Parser.Takes.pays {α : Type} [Relocate α] {parser : Parser α} {session : Session}
    {nodes rest : List Token} {tree : α} {levels : Nat} (positive : 0 < levels)
    (takes : parser.Takes (bare nodes) (bare rest) (erase tree) levels
      (nestingLimit - session.nesting.depth))
    (moves : Parser.Moves .erasure parser parser)
    (same : session.cursor.remaining.map Spanned.node = nodes ++ rest) :
    session.Pays parser tree levels rest := by
  have erased : relocate .erasure session.cursor.remaining = bare nodes ++ bare rest := by
    rw [relocate_erasure_tokens, same, bare_append]
  rcases takes.run_moved moves erased with
    ⟨fits, found, after, ran, alike, left⟩ | ⟨large, error, after, ran, cause⟩
  · obtain ⟨result, stop, climbs⟩ := Session.read_of_done ran
    refine .inl ⟨by omega, ⟨found, result, alike⟩, ?_, climbs⟩
    rw [relocate_erasure_tokens] at left
    have nodes := congrArg (List.map Spanned.node) left
    rw [map_node_bare, map_node_bare] at nodes
    rw [stop, nodes]
  · exact .inr ⟨by omega, error, Session.read_of_failed ran, cause⟩

theorem Expr.Shaped.pays {expr : Spanned Expr} (shaped : expr.node.Shaped .bare .value)
    {session : Session} {rest : List Token}
    (same : session.cursor.remaining.map Spanned.node = Piece.tokens expr.node.pieces ++ rest)
    (ends : EndsExpr (bare rest)) : session.Pays .expression expr expr.node.cost rest := by
  rw [expr.node.cost_eq]
  exact (shaped.derives.takes_expression (Nat.sub_le _ _) ends).pays (Nat.succ_pos _) .expression same

/-- The text of an expression whose operands bind as tightly as their places demand is read if and only
if it costs no more than all levels. Wherever the tokens of the text stand, and whatever was read before
them, they are read if and only if the levels that are left pay for it, and then that is what they cost. -/
theorem read_iff_cost_le {expr : Spanned Expr} (shaped : expr.node.Shaped .bare .value) :
    ((∃ found, (readExpr expr.node.text).value = .ok found) ↔ expr.node.cost ≤ nestingLimit) ∧
    ∀ (session : Session) (rest : List Token), EndsExpr (bare rest) →
      session.cursor.remaining.map Spanned.node = Piece.tokens expr.node.pieces ++ rest →
      session.Pays .expression expr expr.node.cost rest := by
  refine ⟨?_, fun session rest ends same => shaped.pays same ends⟩
  rw [expr.node.cost_eq]
  rcases shaped.givesBack with ⟨fits, found, read, _⟩ | ⟨large, error, failed, _⟩
  · exact iff_of_true ⟨found, read⟩ fits
  · refine iff_of_false ?_ (Nat.not_le.mpr large)
    rintro ⟨found, read⟩
    cases read.symm.trans failed

theorem read_iff_cost_le_of_lookups :
    (lookups 2).node.text = "a[a[a]]" ∧
      (∃ found, (readExpr (lookups 127).node.text).value = .ok found) ∧
      (¬ ∃ found, (readExpr (lookups 128).node.text).value = .ok found) ∧
      (Session.fresh (.start 5 (bare [.ident "a", .symbol .leftBracket, .ident "a",
        .symbol .rightBracket, .symbol .rightParen]))).Pays .expression (lookups 1) 3
        [.symbol .rightParen] := by
  refine ⟨by decide +kernel, ?_, ?_, ?_⟩
  · rw [(read_iff_cost_le (shaped_lookups 127)).1, cost_lookups]
    decide
  · rw [(read_iff_cost_le (shaped_lookups 128)).1, cost_lookups]
    decide
  · have ends : EndsExpr (bare [.symbol .rightParen]) := by
      rintro _ ⟨⟩
      rfl
    exact (read_iff_cost_le (shaped_lookups 1)).2 _ _ ends rfl

end ContractSyntax
