/-
**Diagnostics point at tokens, in order.**

An error is found at a place that an attempt has reached, so it is about the token there, or about the
end of the input. The next attempt starts behind that place or at it, and if it starts at it, then with a
token that it takes before it can fail. So no place is reported twice.

* `Session.errorsFound_increasing`: the errors of all attempts lie one behind the other;
* `diagnostics_in_order`: what is reported about a source, under any options.
-/

import ContractSyntax.Proofs.Lexing.Scans
import ContractSyntax.Proofs.Recovery.Progress

namespace ContractSyntax

/-! ### Cursors over tokens in order -/

namespace Cursor

/-- Whether the tokens from the cursor on lie one after the other, up to the end of the input. -/
def InOrder (cursor : Cursor) : Prop :=
  ∃ low, Tokens.Between low cursor.endOffset cursor.remaining

/-- Whether the error lies at the cursor or behind it, and behind it if a token that starts a definition
stands there. -/
def Leads (cursor : Cursor) (error : SyntaxError) : Prop :=
  cursor.span.start ≤ error.span.start ∧
    ∀ token, cursor.current? = some token → startsItem token = true →
      cursor.span.start < error.span.start

variable {tokens : Tokens} {earlier later : Cursor}

theorem InOrder.le_start {low : Nat} (between : Tokens.Between low earlier.endOffset earlier.remaining) :
    low ≤ earlier.span.start := by
  unfold span
  cases remaining : earlier.remaining with
  | nil =>
    rw [remaining] at between
    exact between
  | cons first rest =>
    rw [remaining] at between
    exact between.1

theorem InOrder.passes (inOrder : earlier.InOrder) (passes : Passes tokens earlier later) :
    later.InOrder := by
  obtain ⟨low, between⟩ := inOrder
  rw [passes.remaining, ← passes.endOffset] at between
  obtain ⟨middle, _, after⟩ := Tokens.between_append.mp between
  exact ⟨middle, after⟩

/-- A cursor that is reached stands at the same place or behind it. -/
theorem InOrder.start_le (inOrder : earlier.InOrder) (passes : Passes tokens earlier later) :
    earlier.span.start ≤ later.span.start ∧
      (earlier.index < later.index → earlier.span.start < later.span.start) := by
  obtain ⟨low, between⟩ := inOrder
  rw [passes.remaining, ← passes.endOffset] at between
  obtain ⟨middle, before, after⟩ := Tokens.between_append.mp between
  have reached := InOrder.le_start after
  cases tokens with
  | nil =>
    have same : earlier.span = later.span := by
      rw [span, span, passes.remaining, passes.endOffset, List.nil_append]
    refine ⟨Nat.le_of_eq (by rw [same]), fun moved => ?_⟩
    rw [passes.index] at moved
    exact absurd moved (Nat.lt_irrefl _)
  | cons first rest =>
    rw [span_of_cons passes.remaining]
    obtain ⟨_, some, behind⟩ := before
    have stop := behind.le
    exact ⟨by omega, fun _ => by omega⟩

end Cursor

/-! ### The errors of all attempts -/

namespace Session

/-- Every error of the attempts is found at a place that is reached from where the session stands. -/
theorem errorsFound_located {session : Session} {error : SyntaxError}
    (found : error ∈ session.errorsFound) :
    ∃ cause place, error = place.error cause ∧ session.cursor.Reaches place := by
  obtain ⟨attempt, member, same⟩ := List.mem_filterMap.mp found
  obtain ⟨cause, place, rfl, reached, _⟩ := (session.attempts_orderly attempt member).fails error same
  exact ⟨cause, place, rfl, (session.reaches_start attempt member).trans reached⟩

/-- An error of an attempt lies between the places where this and the next attempt start, and not at the
first of them if a token that starts a definition stands there. -/
theorem attempt_leads {session : Session} (inOrder : session.cursor.InOrder)
    (more : session.cursor.remaining ≠ []) {error : SyntaxError}
    (failed : session.attempt.error? = some error) :
    session.cursor.Leads error ∧ error.span.start ≤ session.attempt.next.cursor.span.start := by
  have orderly := attempt_orderly more
  obtain ⟨cause, place, rfl, ⟨before, reached⟩, ⟨after, behind⟩, moved⟩ := orderly.fails error failed
  obtain ⟨skipped, recovered⟩ := orderly.recovers
  rw [attempt_start] at reached moved
  have here := inOrder.start_le reached
  have next := (inOrder.passes reached).start_le (behind.trans recovered)
  exact ⟨⟨here.1, fun token current starts => here.2 (moved token current starts)⟩, next.1⟩

/-- Behind an attempt that fails, no error lies where the next attempt starts. -/
theorem lt_of_leads {session : Session} (more : session.cursor.remaining ≠ [])
    (failed : session.attempt.error?.isSome = true) {other : SyntaxError}
    (member : other ∈ session.attempt.next.errorsFound)
    (leads : session.attempt.next.cursor.Leads other) :
    session.attempt.next.cursor.span.start < other.span.start := by
  cases current : session.attempt.next.cursor.current? with
  | none =>
    have ended : session.attempt.next.cursor.remaining = [] := by
      simpa [Cursor.current?] using current
    rw [errorsFound_of_ended ended] at member
    cases member
  | some token => exact leads.2 token current ((attempt_orderly more).resumes failed token current)

/-- The errors of the attempts lie one behind the other, from the place of the session on. -/
theorem errorsFound_increasing {session : Session} (inOrder : session.cursor.InOrder) :
    session.errorsFound.Pairwise (fun first later => first.span.start < later.span.start) ∧
      ∀ error ∈ session.errorsFound, session.cursor.Leads error := by
  fun_induction Session.attempts session with
  | case1 session ended =>
    rw [errorsFound_of_ended ended]
    exact ⟨.nil, List.forall_mem_nil _⟩
  | case2 session first rest more continued =>
    have more : session.cursor.remaining ≠ [] := by simp [more]
    have orderly := attempt_orderly more
    obtain ⟨passed, passes⟩ := orderly.reaches.trans orderly.recovers
    have advances := orderly.advances
    rw [attempt_start] at passes advances
    have further := (inOrder.start_le passes).2 advances
    obtain ⟨increasing, leads⟩ := continued (inOrder.passes passes)
    have ahead : ∀ error ∈ session.attempt.next.errorsFound, session.cursor.Leads error := by
      intro error member
      have bound := Nat.lt_of_lt_of_le further (leads error member).1
      exact ⟨Nat.le_of_lt bound, fun _ _ _ => bound⟩
    rw [errorsFound_of_more more]
    cases failed : session.attempt.error? with
    | none => exact ⟨increasing, ahead⟩
    | some error =>
      obtain ⟨first, stop⟩ := attempt_leads inOrder more failed
      refine ⟨List.pairwise_cons.mpr ⟨fun other member => ?_, increasing⟩,
        List.forall_mem_cons.mpr ⟨first, ahead⟩⟩
      exact Nat.lt_of_le_of_lt stop
        (lt_of_leads more (by rw [failed]; rfl) member (leads other member))

end Session

/-! ### What is reported -/

/-- The errors of a reading under options are errors of the attempts, in their order. -/
theorem errors_sublist {options : ParseOptions} {file : String} {size : Nat} {tokens : Tokens}
    {events : List Event} {errors : List SyntaxError}
    (failed : (collectProgramTokens options file size tokens events).value = .error errors) :
    errors.Sublist (Session.ofTokens size tokens).errorsFound := by
  rw [collected_value] at failed
  split at failed
  · cases failed
  · next error others found =>
    cases failed
    rw [found]
    exact (List.take_sublist _ _).cons_cons error

/-- **Diagnostics point at real tokens, in order.** Whatever is reported about a source under any options
is a syntax error that stands at a token of the source and tells it, or at its end and tells that;
it has the position at which it starts; and each starts behind the one before. -/
theorem diagnostics_in_order (options : ParseOptions) (file source : String) (tokens : Tokens)
    (events : List Event) (lexed : tokenize source = .ok tokens) (errors : List SyntaxError)
    (failed : (collectProgramTokens options file source.utf8ByteSize tokens events).value =
      .error errors) :
    let index := LineIndex.ofText source
    let diagnostics := errors.map (SyntaxError.diagnostic index)
    (∀ diagnostic ∈ diagnostics, ∃ message expected found span,
      diagnostic = .syntactic message expected found span (index.position span.start) ∧
      ((∃ token ∈ tokens, span = token.span ∧ found = token.node.describe) ∨
        (span = .point source.utf8ByteSize ∧ found = "end of input"))) ∧
      (diagnostics.filterMap Diagnostic.span?).Pairwise fun first later =>
        first.start < later.start := by
  intro index diagnostics
  have sublist := errors_sublist failed
  refine ⟨fun diagnostic member => ?_, ?_⟩
  · obtain ⟨error, reported, rfl⟩ := List.mem_map.mp member
    obtain ⟨cause, place, rfl, before, passes⟩ :=
      Session.errorsFound_located (sublist.subset reported)
    refine ⟨_, _, _, _, rfl, ?_⟩
    obtain ⟨_, found, span⟩ := Cursor.Passes.isAt passes cause
    rw [found, span]
    cases here : tokens[before.length]? with
    | none => exact .inr ⟨rfl, rfl⟩
    | some token => exact .inl ⟨token, List.mem_of_getElem? here, rfl, rfl⟩
  · have inOrder : (Session.ofTokens source.utf8ByteSize tokens).cursor.InOrder :=
      ⟨0, between_of_tokenize lexed⟩
    have increasing := (Session.errorsFound_increasing inOrder).1.sublist sublist
    rw [List.filterMap_map, show (Diagnostic.span? ∘ SyntaxError.diagnostic index) =
      fun error => some error.span from rfl, List.filterMap_eq_map']
    exact List.pairwise_map.mpr increasing

theorem diagnostics_in_order_of_word :
    ∃ tokens errors, tokenize "x fn" = .ok tokens ∧
      (collectProgramTokens .collect "a" "x fn".utf8ByteSize tokens []).value = .error errors ∧
      errors.length = 2 ∧
      ((errors.map (SyntaxError.diagnostic (.ofText "x fn"))).filterMap Diagnostic.span?).Pairwise
        fun first later => first.start < later.start := by
  have counted : (match tokenize "x fn" with
    | .error _ => 0
    | .ok tokens =>
      match (collectProgramTokens .collect "a" "x fn".utf8ByteSize tokens []).value with
      | .ok _ => 0
      | .error errors => errors.length) = 2 := by decide +kernel
  split at counted
  · cases counted
  · next tokens lexed =>
    split at counted
    · cases counted
    · next errors failed =>
      exact ⟨tokens, errors, lexed, failed, counted,
        (diagnostics_in_order .collect "a" "x fn" tokens [] lexed errors failed).2⟩

end ContractSyntax
