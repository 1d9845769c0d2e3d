/-
**The span of a node names its text.**

The text between the ends of the span of a definition, type, pattern or expression is read alone as
the same, in the way of its kind, but for places that count from where the text starts. The tokens of
a fragment follow one another in the whole, and its span runs from the first to the last, so they are
the tokens of that text; its derivation opens no more levels than the whole, so the limit of nesting
is not in the way.

* `Program.Derives.holds`: every fragment of a program is made up of some of its tokens;
* `fragments_read`: every fragment of a program that is read is read back from its slice.
-/

import ContractSyntax.Proofs.Fragments.Tokens
import ContractSyntax.Proofs.Lexing.Slices
import ContractSyntax.Proofs.Places.Program
import ContractSyntax.Proofs.Reading

namespace ContractSyntax

open Fragment

variable {tokens : Tokens} {height : Nat}

/-! ### Parts of definitions -/

theorem Row.holds {α : Type} {meaning : Tokens → α → Nat → Prop} {values : List α}
    {below : α → List Fragment} (row : Row meaning tokens values height)
    (each : ∀ {tokens value height}, meaning tokens value height →
      Holds tokens height (below value)) :
    Holds tokens height (values.flatMap below) := by
  obtain ⟨parts, commas, rfl, rfl, derived⟩ := row
  exact .row commas fun part member => each (derived part member)

theorem Several.holds {α : Type} {meaning : Tokens → α → Nat → Prop} {values : List α}
    {below : α → List Fragment} (several : Several meaning tokens values height)
    (each : ∀ {tokens value height}, meaning tokens value height →
      Holds tokens height (below value)) :
    Holds tokens height (values.flatMap below) := by
  induction several with
  | none => exact .nil
  | more first _ continued => exact (each first).append continued

theorem Derives.holds_expr {tree : Spanned Expr} (derived : Derives .subexpr tokens tree height) :
    Holds tokens height (ofExpr tree) :=
  .expr derived derived.holds

theorem Derives.holds_type {tree : Spanned Ty} (derived : Derives .subtype tokens tree height) :
    Holds tokens height (ofType tree) :=
  .type derived derived.holds

theorem TypedName.Derives.holds {typed : TypedName} (derived : TypedName.Derives tokens typed height) :
    Holds tokens height typed.fragments := by
  obtain ⟨name, colon, type⟩ := derived
  exact .skip _ (.skip _ type.holds_type)

theorem Attribute.Derives.holds {mark : Attribute} (derived : Attribute.Derives tokens mark height) :
    Holds tokens height mark.fragments := by
  cases derived with
  | bare => exact .nil
  | applied start opened stop name row =>
    have given : Holds _ _ (List.flatMap ofExpr _) := row.holds fun derived => derived.holds_expr
    exact .prepend [_, _, _] (given.before _)

theorem Condition.Derives.holds {condition : Condition}
    (derived : Condition.Derives tokens condition height) :
    Holds tokens height (ofExpr condition.condition) := by
  obtain ⟨_, derived⟩ := derived
  exact .prepend _ derived.holds_expr

theorem Clause.holds {word : Keyword} {found : Option (Spanned Expr)}
    (clause : Clause word tokens found height) :
    Holds tokens height (found.toList.flatMap ofExpr) := by
  cases clause with
  | absent => exact .nil
  | present start derived => simpa using Holds.skip _ derived.holds_expr

theorem Contract.Derives.holds {contract : Option Contract}
    (derived : Contract.Derives tokens contract height) :
    Holds tokens height (contract.toList.flatMap Contract.fragments) := by
  cases derived with
  | conditions start opened stop row =>
    have conditions : Holds _ _ (List.flatMap (fun each : Condition => ofExpr each.condition) _) :=
      row.holds fun derived => derived.holds
    simpa [Contract.fragments] using Holds.skip _ (Holds.skip _ (conditions.before [_]))
  | @clauses _ _ pre post _ _ derivedPre derivedPost =>
    have clauses := derivedPre.holds.append derivedPost.holds
    have same : (Contract.ofClauses pre post).toList.flatMap Contract.fragments =
        pre.toList.flatMap ofExpr ++ post.toList.flatMap ofExpr := by
      cases pre <;> cases post <;> simp [Contract.ofClauses, Contract.fragments]
    rwa [same]

theorem Variant.Derives.holds {variant : Variant} (derived : Variant.Derives tokens variant height) :
    Holds tokens height variant.fragments := by
  cases derived with
  | bare => exact .nil
  | parts name start stop row =>
    have parts : Holds _ _ (List.flatMap ofType _) := row.holds fun derived => derived.holds_type
    exact .skip _ (.skip _ (parts.before _))

theorem Parser.Header.Derives.holds {header : Parser.Header} {following : Span}
    (headed : header.Derives following tokens height) :
    Holds tokens height (header.attributes.flatMap Attribute.fragments) := by
  obtain ⟨several, _⟩ := headed
  exact (several.holds fun derived => derived.holds).before _

/-! ### Definitions and programs -/

/-- The fragments below a definition are made up of some of its tokens. -/
theorem Item.Derives.holds {item : Item} (derived : Item.Derives tokens item height) :
    Holds tokens height item.fragments := by
  cases derived with
  | use => exact .nil
  | struct word opened stop name headed row =>
    have fields : Holds _ _ (List.flatMap TypedName.fragments _) :=
      row.holds fun derived => derived.holds
    exact headed.holds.append (.prepend [_, _, _] (fields.before _))
  | enum word opened stop name headed row =>
    have variants : Holds _ _ (List.flatMap Variant.fragments _) :=
      row.holds fun derived => derived.holds
    exact headed.holds.append (.prepend [_, _, _] (variants.before _))
  | @function word opened closed arrow equal stop name _ _ labelled _ _ _ _ _ _ _ _ _ _ _ _ _ _
      headed row named derivedType derivedContract derivedBody =>
    have parameters : Holds _ _ (List.flatMap TypedName.fragments _) :=
      row.holds fun derived => derived.holds
    have body := derivedContract.holds.append
      (.skip ⟨.symbol .equal, equal⟩ (derivedBody.holds_expr.before [⟨.symbol .semicolon, stop⟩]))
    have result := Holds.prepend labelled (derivedType.holds_type.append body)
    exact headed.holds.append (.prepend [_, _, _] (parameters.append (.skip _ (.skip _ result))))

/-- The fragments of a program are made up of some of its tokens. -/
theorem Program.Derives.holds {program : Program} (derived : program.Derives tokens height) :
    Holds tokens height program.fragments :=
  Several.holds derived fun {_ item _} derived =>
    .whole (show (Fragment.definition item).Derives _ _ from derived) derived.holds

/-! ### Reading a fragment -/

namespace Fragment

/-- A fragment has tokens, and its span runs from the first to the last. -/
theorem Derives.spans {fragment : Fragment} (derived : fragment.Derives tokens height) :
    tokens ≠ [] ∧ Spans tokens fragment.span := by
  cases fragment with
  | expr place =>
    obtain ⟨_, _, same, _⟩ := ContractSyntax.Derives.opened derived
    exact ⟨same ▸ List.cons_ne_nil _ _, derived.placed.1⟩
  | type place =>
    obtain ⟨_, _, same, _⟩ := ContractSyntax.Derives.opened derived
    exact ⟨same ▸ List.cons_ne_nil _ _, derived.placed.1⟩
  | pattern place =>
    obtain ⟨_, _, same, _⟩ := Pattern.Derives.opened derived
    exact ⟨same ▸ List.cons_ne_nil _ _, Pattern.Derives.spans derived⟩
  | definition item => exact ⟨Item.Derives.tokens_ne_nil derived, (Item.Derives.placed derived).1⟩

/-- Whether the text at an offset is read as the fragment there, in the way of its kind. -/
def ReadFrom (text : String) (offset : Nat) : Fragment → Prop
  | expr place =>
    ∃ found, (readExpr text).value = .ok found ∧ relocate (.forward offset) found = place
  | type place =>
    ∃ found, (readType text).value = .ok found ∧ relocate (.forward offset) found = place
  | pattern place =>
    ∃ found, (readPattern text).value = .ok found ∧ relocate (.forward offset) found = place
  | definition item =>
    ∀ file, ∃ found, (readProgram file text).value = .ok found ∧
      relocate (.forward offset) found = ⟨[item]⟩

/-- The tokens that make up a fragment are read as the fragment. -/
theorem Derives.readFrom {fragment : Fragment} {text : String} {offset : Nat} {places : Tokens}
    (derived : fragment.Derives (relocate (.forward offset) places) height)
    (lexed : tokenize text = .ok places) (fits : height ≤ nestingLimit) :
    fragment.ReadFrom text offset := by
  have ends : EndsExpr [] := nofun
  cases fragment with
  | expr place =>
    exact readAll_moved lexed .expression (derived.takes_expression (Nat.le_refl _) ends) fits
  | type place => exact readAll_moved lexed .type (derived.takes_type (Nat.le_refl _) nofun) fits
  | pattern place =>
    exact readAll_moved lexed .pattern (Level.takes_pattern derived ends.operand.name) (Nat.zero_le _)
  | definition item =>
    intro file
    have whole : Program.Derives (relocate (.forward offset) places) ⟨[item]⟩ height := by
      have alone := Several.more derived .none
      rwa [List.append_nil, Nat.max_zero] at alone
    exact readProgram_moved file lexed whole fits

end Fragment

/-- Every definition, type, pattern and expression of a program that is read is read back from the
text at its span, with places that count from the start of the span. -/
theorem fragments_read {file source : String} {program : Program}
    (read : (readProgram file source).value = .ok program) :
    ∀ fragment ∈ program.fragments, ∃ text, fragment.span.Cuts source text ∧
      fragment.ReadFrom text fragment.span.start := by
  intro fragment member
  obtain ⟨tokens, height, lexed, derived⟩ := Program.Derives.of_read read
  obtain ⟨part, low, inside, le, within⟩ :=
    derived.holds _ _ (between_of_tokenize lexed) fragment member
  obtain ⟨some, spans⟩ := within.spans
  obtain ⟨text, places, cuts, sliced, rfl⟩ := tokenize_slice lexed inside some spans
  exact ⟨text, cuts, within.readFrom sliced (Nat.le_trans le (derived.height_le lexed read))⟩

theorem fragments_read_of_block :
    ∃ program,
      (readProgram "a" "fn f(a: i64) -> i64 = \x7b let b = 1 + 2 * a; b = 4; b \x7d;").value =
        .ok program ∧
      ∀ fragment ∈ program.fragments, ∃ text,
        fragment.span.Cuts "fn f(a: i64) -> i64 = \x7b let b = 1 + 2 * a; b = 4; b \x7d;" text ∧
        fragment.ReadFrom text fragment.span.start := by
  have isRead :
      (readProgram "a" "fn f(a: i64) -> i64 = \x7b let b = 1 + 2 * a; b = 4; b \x7d;").value.isOk := by
    decide +kernel
  obtain ⟨program, read⟩ := ok_of_isOk isRead
  exact ⟨program, read, fragments_read read⟩

end ContractSyntax
