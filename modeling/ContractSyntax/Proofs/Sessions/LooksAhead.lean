/-
**Parsers that only look ahead, and not far.**

What a run comes to depends on the tokens ahead of its cursor and on where the input ends, not on how
the cursor came there: neither on how many tokens have been passed and what was noted on the way, nor
on where the last of them ended. The one parser that asks for the latter only does so behind a token
of its own construct; so the property is stated for cursors that also agree on it (`settled`) and for
cursors that need not.

Nor does it depend on all the tokens ahead. No parser looks further than to the second token, and none
goes back. So two runs come to the same, even if they have different tokens ahead from some place on,
if one of them stops two tokens before that place.

* `Rests.Ahead`: two cursors with some tokens in common, and behind these a rest of its own for each;
* `Parser.LooksAhead.same`: runs from cursors with the same ahead of them, to the end of the input;
* `LooksAhead.bind`: parsers in a row;
* `LooksAhead.behind`: behind a token of one's own the place where it ended is settled;
* `LooksAhead.chain`, `LooksAhead.sequence`, `LooksAhead.opened`, `LooksAhead.untilEnd`: repetitions.
-/

import ContractSyntax.Proofs.Unfolding

namespace ContractSyntax

/-! ### Cursors with the same ahead of them -/

/-- Whether two cursors have the same tokens ahead, and, where that is settled, the same end of the
token passed last. -/
structure Cursor.Alike (settled : Prop) (first second : Cursor) : Prop where
  remaining : first.remaining = second.remaining
  endOffset : first.endOffset = second.endOffset
  lastStop : settled → first.lastStop = second.lastStop

namespace Cursor.Alike

variable {settled : Prop} {first second : Cursor}

theorem current?_eq (alike : Alike settled first second) : first.current? = second.current? := by
  rw [current?, current?, alike.remaining]

theorem second?_eq (alike : Alike settled first second) : first.second? = second.second? := by
  rw [second?, second?, alike.remaining]

theorem span_eq (alike : Alike settled first second) : first.span = second.span := by
  rw [span, span, alike.remaining, alike.endOffset]

theorem note (alike : Alike settled first second) (event other : Event) :
    Alike settled (first.note event) (second.note other) :=
  ⟨alike.remaining, alike.endOffset, alike.lastStop⟩

theorem advance (alike : Alike settled first second) :
    Alike settled first.advance second.advance := by
  have same := alike.remaining
  cases ahead : first.remaining with
  | nil =>
    rw [ahead] at same
    simp only [Cursor.advance, ahead, ← same]
    exact alike
  | cons token rest =>
    rw [ahead] at same
    rw [advance_of_cons ahead, advance_of_cons same.symm]
    exact ⟨rfl, alike.endOffset, fun _ => rfl⟩

end Cursor.Alike

/-! ### Cursors with different rests -/

/-- What two cursors have ahead of them behind the tokens that they have in common. -/
structure Rests where
  first : List (Spanned Token)
  second : List (Spanned Token)

namespace Rests

/-- Nothing ahead but what is in common. -/
def none : Rests := ⟨[], []⟩

/-- Whether two cursors have some tokens in common before the rests, and, where that is settled, the
same end of the token passed last. -/
structure Ahead (rests : Rests) (settled : Prop) (first second : Cursor) : Prop where
  common : ∃ tokens, first.remaining = tokens ++ rests.first ∧ second.remaining = tokens ++ rests.second
  endOffset : first.endOffset = second.endOffset
  lastStop : settled → first.lastStop = second.lastStop

/-- Whether a cursor stands two tokens before its rest at least, or there are no rests. -/
def IsFar (rests : Rests) (cursor : Cursor) : Prop :=
  rests = none ∨ rests.first.length + 2 ≤ cursor.remaining.length

variable {rests : Rests} {settled : Prop} {first second cursor later : Cursor}

theorem IsFar.before (far : rests.IsFar later) (reached : cursor.Reaches later) :
    rests.IsFar cursor :=
  far.imp_right fun enough => Nat.le_trans enough reached.length_le

namespace Ahead

theorem ofAlike (alike : first.Alike settled second) : none.Ahead settled first second where
  common := ⟨first.remaining, (List.append_nil _).symm, by
    rw [alike.remaining]
    exact (List.append_nil _).symm⟩
  endOffset := alike.endOffset
  lastStop := alike.lastStop

theorem alike (ahead : none.Ahead settled first second) : first.Alike settled second where
  remaining := by
    obtain ⟨tokens, here, there⟩ := ahead.common
    exact here.trans there.symm
  endOffset := ahead.endOffset
  lastStop := ahead.lastStop

/-- Two tokens before its rest a cursor has two tokens in common with the other. -/
theorem two (ahead : rests.Ahead settled first second)
    (enough : rests.first.length + 2 ≤ first.remaining.length) :
    ∃ token next tokens, first.remaining = token :: next :: (tokens ++ rests.first) ∧
      second.remaining = token :: next :: (tokens ++ rests.second) := by
  obtain ⟨tokens, here, there⟩ := ahead.common
  rw [here, List.length_append] at enough
  cases tokens with
  | nil =>
    rw [List.length_nil] at enough
    omega
  | cons token tokens =>
    cases tokens with
    | nil =>
      rw [List.length_singleton] at enough
      omega
    | cons next tokens => exact ⟨token, next, tokens, here, there⟩

/-- What is in common goes as far as anything is looked at. -/
theorem cases (ahead : rests.Ahead settled first second) (far : rests.IsFar first) :
    first.Alike settled second ∨ ∃ token next tokens,
      first.remaining = token :: next :: (tokens ++ rests.first) ∧
        second.remaining = token :: next :: (tokens ++ rests.second) := by
  rcases far with rfl | enough
  · exact .inl ahead.alike
  · exact .inr (ahead.two enough)

theorem current?_eq (ahead : rests.Ahead settled first second) (far : rests.IsFar first) :
    first.current? = second.current? := by
  rcases ahead.cases far with alike | ⟨token, next, tokens, here, there⟩
  · exact alike.current?_eq
  · rw [Cursor.current?, Cursor.current?, here, there]
    rfl

theorem second?_eq (ahead : rests.Ahead settled first second) (far : rests.IsFar first) :
    first.second? = second.second? := by
  rcases ahead.cases far with alike | ⟨token, next, tokens, here, there⟩
  · exact alike.second?_eq
  · rw [Cursor.second?, Cursor.second?, here, there]
    rfl

theorem span_eq (ahead : rests.Ahead settled first second) (far : rests.IsFar first) :
    first.span = second.span := by
  rcases ahead.cases far with alike | ⟨token, next, tokens, here, there⟩
  · exact alike.span_eq
  · rw [Cursor.span, Cursor.span, here, there]

theorem error_eq (ahead : rests.Ahead settled first second) (far : rests.IsFar first)
    (cause : Cause) : first.error cause = second.error cause := by
  rw [Cursor.error, Cursor.error, ahead.current?_eq far, ahead.span_eq far]

theorem note (ahead : rests.Ahead settled first second) (event other : Event) :
    rests.Ahead settled (first.note event) (second.note other) :=
  ⟨ahead.common, ahead.endOffset, ahead.lastStop⟩

theorem advance (ahead : rests.Ahead settled first second) (far : rests.IsFar first) :
    rests.Ahead settled first.advance second.advance := by
  rcases far with rfl | enough
  · exact ofAlike ahead.alike.advance
  · obtain ⟨token, next, tokens, here, there⟩ := ahead.two enough
    rw [Cursor.advance_of_cons here, Cursor.advance_of_cons there]
    exact ⟨⟨next :: tokens, rfl, rfl⟩, ahead.endOffset, fun _ => rfl⟩

theorem ended_iff (ahead : rests.Ahead settled first second) (far : rests.IsFar first) :
    first.remaining = [] ↔ second.remaining = [] := by
  rcases ahead.cases far with alike | ⟨token, next, tokens, here, there⟩
  · rw [alike.remaining]
  · rw [here, there]
    exact iff_of_false (List.cons_ne_nil _ _) (List.cons_ne_nil _ _)

theorem weaken (ahead : rests.Ahead True first second) : rests.Ahead settled first second :=
  ⟨ahead.common, ahead.endOffset, fun _ => ahead.lastStop trivial⟩

/-- Cursors with tokens in common have passed the same tokens if they had before. -/
theorem passes {first' second' : Cursor} (ahead : rests.Ahead settled first second)
    (after : rests.Ahead settled first' second') (reached : first.Reaches first')
    (reached' : second.Reaches second') :
    ∃ tokens, Cursor.Passes tokens first first' ∧ Cursor.Passes tokens second second' := by
  obtain ⟨passed, passes⟩ := reached
  obtain ⟨passed', passes'⟩ := reached'
  obtain ⟨tokens, here, there⟩ := ahead.common
  obtain ⟨tokens', here', there'⟩ := after.common
  have whole : tokens = passed ++ tokens' := by
    have remaining := passes.remaining
    rw [here, here', ← List.append_assoc] at remaining
    exact List.append_cancel_right remaining
  have whole' : tokens = passed' ++ tokens' := by
    have remaining := passes'.remaining
    rw [there, there', ← List.append_assoc] at remaining
    exact List.append_cancel_right remaining
  exact ⟨passed, passes, List.append_cancel_right (whole.symm.trans whole') ▸ passes'⟩

/-- Behind a token that both have passed, two cursors agree on where it ended. -/
theorem settle {first' second' : Cursor} (ahead : rests.Ahead settled first second)
    (after : rests.Ahead settled first' second') (reached : first.Reaches first')
    (reached' : second.Reaches second')
    (passed : first'.remaining.length < first.remaining.length) :
    rests.Ahead True first' second' := by
  obtain ⟨tokens, passes, passes'⟩ := ahead.passes after reached reached'
  refine ⟨after.common, after.endOffset, fun _ => ?_⟩
  rw [passes.lastStop, passes'.lastStop]
  refine Cursor.stopAfter_eq (fun none => ?_) _ _
  rw [passes.remaining, none, List.nil_append] at passed
  exact Nat.lt_irrefl _ passed

end Ahead

end Rests

/-- What a run has come to, without where it stopped. -/
def Outcome.result {α : Type} : Outcome α → Except SyntaxError α
  | done value _ _ => .ok value
  | failed error _ => .error error

/-- Whether two runs come to the same, with related cursors where they stopped. -/
inductive Outcome.Alike {α : Type} (related : Cursor → Cursor → Prop) :
    Outcome α → Outcome α → Prop where
  | done {value : α} {height : Nat} {first second : Cursor} (after : related first second) :
      Alike related (.done value height first) (.done value height second)
  | failed {error : SyntaxError} {first second : Cursor} (after : related first second) :
      Alike related (.failed error first) (.failed error second)

namespace Outcome.Alike

variable {α : Type} {related other : Cursor → Cursor → Prop} {first second : Outcome α}

theorem mono (alike : Alike related first second)
    (implies : ∀ first second, related first second → other first second) :
    Alike other first second := by
  cases alike with
  | done after => exact .done (implies _ _ after)
  | failed after => exact .failed (implies _ _ after)

theorem above (height : Nat) (alike : Alike related first second) :
    Alike related (first.above height) (second.above height) := by
  cases alike with
  | done after => exact .done after
  | failed after => exact .failed after

theorem result_eq (alike : Alike related first second) : first.result = second.result := by
  cases alike <;> rfl

theorem cursor (alike : Alike related first second) : related first.cursor second.cursor := by
  cases alike <;> assumption

end Outcome.Alike

namespace Parser

variable {α β : Type} {settled : Prop} {rests : Rests}

/-- Runs from cursors with tokens in common come to the same, if one of them stops far enough before
where the rests begin. -/
def LooksAhead (settled : Prop) (parser : Parser α) : Prop :=
  ∀ (rests : Rests) room first second, rests.Ahead settled first second →
    rests.IsFar (parser.run room first).cursor →
    Outcome.Alike (rests.Ahead settled) (parser.run room first) (parser.run room second)

namespace LooksAhead

/-- Runs from cursors with the same ahead of them come to the same. -/
theorem same {parser : Parser α} (looks : parser.LooksAhead settled) (room : Nat)
    {first second : Cursor} (alike : first.Alike settled second) :
    Outcome.Alike (Cursor.Alike settled) (parser.run room first) (parser.run room second) :=
  (looks .none room first second (.ofAlike alike) (.inl rfl)).mono fun _ _ => Rests.Ahead.alike

/-- The second run does what the first has done, if that ended far enough before the rests. -/
theorem of_done {parser : Parser α} (looks : parser.LooksAhead settled) {room : Nat}
    {first second after : Cursor} {value : α} {height : Nat} (ahead : rests.Ahead settled first second)
    (ran : parser.run room first = .done value height after) (far : rests.IsFar after) :
    ∃ after', parser.run room second = .done value height after' ∧
      rests.Ahead settled after after' := by
  have same := looks rests room first second ahead
  rw [ran] at same
  generalize parser.run room second = outcome at same
  cases same far with
  | done ahead' => exact ⟨_, rfl, ahead'⟩

theorem of_failed {parser : Parser α} (looks : parser.LooksAhead settled) {room : Nat}
    {first second after : Cursor} {error : SyntaxError} (ahead : rests.Ahead settled first second)
    (ran : parser.run room first = .failed error after) (far : rests.IsFar after) :
    ∃ after', parser.run room second = .failed error after' ∧ rests.Ahead settled after after' := by
  have same := looks rests room first second ahead
  rw [ran] at same
  generalize parser.run room second = outcome at same
  cases same far with
  | failed ahead' => exact ⟨_, rfl, ahead'⟩

/-! ### Parsers in a row -/

protected theorem pure {value : α} : (pure value : Parser α).LooksAhead settled :=
  fun _ _ _ _ ahead _ => .done ahead

theorem bind {parser : Parser α} {next : α → Parser β} (looks : parser.LooksAhead settled)
    (continued : ∀ value, (next value).LooksAhead settled) :
    (parser >>= next).LooksAhead settled := by
  intro rests room first second ahead far
  rw [run_bind] at far ⊢
  rw [run_bind]
  have ran := looks rests room first second ahead
  generalize parser.run room first = outcome, parser.run room second = outcome' at ran far ⊢
  cases outcome with
  | done value height after =>
    simp only [Outcome.cursor_above] at far
    cases ran (far.before ((next value).forward room after)) with
    | done ahead => exact (continued value rests room _ _ ahead far).above height
  | failed error after =>
    cases ran far with
    | failed ahead => exact .failed ahead

/-- Behind a parser that passes a token it is settled where that ended. -/
theorem behind {parser : Parser α} {next : α → Parser β} (advances : parser.Advances)
    (looks : parser.LooksAhead settled) (continued : ∀ value, (next value).LooksAhead True) :
    (parser >>= next).LooksAhead settled := by
  intro rests room first second ahead far
  rw [run_bind] at far ⊢
  rw [run_bind]
  have ran := looks rests room first second ahead
  have reached := parser.forward room first
  have reached' := parser.forward room second
  have passed := advances room first
  generalize parser.run room first = outcome, parser.run room second = outcome' at *
  cases outcome with
  | done value height after =>
    simp only [Outcome.cursor_above] at far
    cases ran (far.before ((next value).forward room after)) with
    | done ahead' =>
      have settles := ahead.settle ahead' reached reached' (passed _ _ _ rfl)
      have same := continued value rests room _ _ settles far
      exact (same.above height).mono fun _ _ => Rests.Ahead.weaken
  | failed error after =>
    cases ran far with
    | failed ahead => exact .failed ahead

/-- What is found at the cursor, if it is found from what is ahead. -/
theorem look {found : Cursor → α}
    (same : ∀ (rests : Rests) first second, rests.Ahead settled first second → rests.IsFar first →
      found first = found second) : (Parser.look found).LooksAhead settled := by
  intro rests room first second ahead far
  show Outcome.Alike _ (.done (found first) 0 first) (.done (found second) 0 second)
  rw [same rests first second ahead far]
  exact .done ahead

theorem current : Parser.current.LooksAhead settled :=
  look fun _ _ _ ahead far => ahead.current?_eq far

theorem second : Parser.second.LooksAhead settled :=
  look fun _ _ _ ahead far => ahead.second?_eq far

theorem here : Parser.here.LooksAhead settled := look fun _ _ _ ahead far => ahead.span_eq far

theorem lastStop : Parser.lastStop.LooksAhead True := look fun _ _ _ ahead _ => ahead.lastStop trivial

theorem note (event : Event) : (Parser.note event).LooksAhead settled :=
  fun _ _ _ _ ahead _ => .done (ahead.note event event)

theorem pass : Parser.pass.LooksAhead settled := by
  intro rests room first second ahead far
  have far := far.before first.reaches_advance
  show Outcome.Alike _ (.done first.span 0 _) (.done second.span 0 _)
  rw [ahead.span_eq far]
  exact .done (ahead.advance far)

protected theorem fail (cause : Cause) : (Parser.fail cause : Parser α).LooksAhead settled := by
  intro rests room first second ahead far
  show Outcome.Alike _ (.failed (first.error cause) _) (.failed (second.error cause) _)
  rw [ahead.error_eq far]
  exact .failed ahead

theorem failWith (error : SyntaxError) : (Parser.failWith error : Parser α).LooksAhead settled :=
  fun _ _ _ _ ahead _ => .failed ahead

theorem accept (token : Token) : (Parser.accept token).LooksAhead settled := by
  refine bind current fun found => ?_
  split
  · exact bind pass fun _ => .pure
  · exact .pure

theorem expect (token : Token) : (Parser.expect token).LooksAhead settled := by
  refine bind current fun found => ?_
  split
  · exact pass
  · exact .fail _

theorem name (role : NameRole) : (Parser.name role).LooksAhead settled := by
  refine bind current fun found => ?_
  split
  · exact bind pass fun _ => .pure
  · exact .fail _

theorem nameBefore (token : Token) : (Parser.nameBefore token).LooksAhead settled := by
  refine bind current fun found => ?_
  split
  · refine bind second fun following => ?_
    split
    · exact bind pass fun _ => bind pass fun _ => .pure
    · exact .pure
  · exact .pure

/-! ### Nesting and repetition -/

theorem nested {parser : Parser α} (looks : parser.LooksAhead settled) :
    (Parser.nested parser).LooksAhead settled := by
  intro rests room first second ahead far
  cases room with
  | zero =>
    simp only [Parser.nested, ahead.error_eq far]
    exact .failed ahead
  | succ room =>
    have ran := looks rests room first second ahead
    simp only [Parser.nested] at far ⊢
    generalize parser.run room first = outcome, parser.run room second = outcome' at ran far ⊢
    cases outcome with
    | done value height after =>
      cases ran far with
      | done ahead => exact .done ahead
    | failed error after =>
      cases ran far with
      | failed ahead => exact .failed ahead

theorem chainFrom {link? : Token → Option (α → Parser α)}
    (links : ∀ token link, link? token = some link → ∀ value, (link value).LooksAhead settled)
    (room : Nat) (value : α) (height : Nat) {first second : Cursor}
    (ahead : rests.Ahead settled first second) :
    rests.IsFar (Parser.chainFrom link? room value height first).cursor →
    Outcome.Alike (rests.Ahead settled) (Parser.chainFrom link? room value height first)
      (Parser.chainFrom link? room value height second) := by
  fun_induction Parser.chainFrom link? room value height first generalizing second with
  | case1 value height first ended =>
    intro far
    rw [chainFrom_step _ _ _ _ second, ← ahead.current?_eq far, ended]
    exact .done ahead
  | case2 value height first link found fits next more after ran continued =>
    intro far
    obtain ⟨token, _, linked⟩ := Option.bind_eq_some_iff.mp found
    have enough := far.before (reaches_chainFrom link? room next (height + 1 + more) after)
    obtain ⟨after', ran', ahead'⟩ := (links token link linked value).of_done ahead ran enough
    rw [chainFrom_step _ _ _ _ second, ← ahead.current?_eq (enough.before (reaches_of_done ran)), found]
    simp only [if_pos fits, ran']
    exact continued ahead' far
  | case3 value height first link found fits error after ran =>
    intro far
    obtain ⟨token, _, linked⟩ := Option.bind_eq_some_iff.mp found
    obtain ⟨after', ran', ahead'⟩ := (links token link linked value).of_failed ahead ran far
    rw [chainFrom_step _ _ _ _ second, ← ahead.current?_eq (far.before (reaches_of_failed ran)), found]
    simp only [if_pos fits, ran']
    exact .failed ahead'
  | case4 value height first link found full =>
    intro far
    rw [chainFrom_step _ _ _ _ second, ← ahead.current?_eq far, found]
    simp only [if_neg full, ahead.error_eq far]
    exact .failed ahead

theorem chain {operand : Parser α} {link? : Token → Option (α → Parser α)}
    (looks : operand.LooksAhead settled)
    (links : ∀ token link, link? token = some link → ∀ value, (link value).LooksAhead settled) :
    (Parser.chain operand link?).LooksAhead settled := by
  intro rests room first second ahead far
  have ran := looks rests room first second ahead
  simp only [Parser.chain] at far ⊢
  generalize operand.run room first = outcome, operand.run room second = outcome' at ran far ⊢
  cases outcome with
  | done value height after =>
    cases ran (far.before (reaches_chainFrom link? room value height after)) with
    | done ahead => exact chainFrom links room value height ahead far
  | failed error after =>
    cases ran far with
    | failed ahead => exact .failed ahead

theorem sequenceFrom {separator : Token} {entry : Parser (Entry α β)}
    (looks : entry.LooksAhead settled) (room : Nat) (items : List α) (height : Nat)
    {first second : Cursor} (ahead : rests.Ahead settled first second) :
    rests.IsFar (Parser.sequenceFrom separator entry room items height first).cursor →
    Outcome.Alike (rests.Ahead settled) (Parser.sequenceFrom separator entry room items height first)
      (Parser.sequenceFrom separator entry room items height second) := by
  fun_induction Parser.sequenceFrom separator entry room items height first generalizing second with
  | case1 items height first error after ran =>
    intro far
    obtain ⟨after', ran', ahead'⟩ := looks.of_failed ahead ran far
    rw [sequenceFrom_step _ _ _ _ _ second, ran']
    exact .failed ahead'
  | case2 items height first result more after ran =>
    intro far
    obtain ⟨after', ran', ahead'⟩ := looks.of_done ahead ran far
    rw [sequenceFrom_step _ _ _ _ _ second, ran']
    exact .done ahead'
  | case3 items height first value more after ran separated continued =>
    intro far
    have enough := (far.before (reaches_sequenceFrom _ _ _ _ _ _)).before after.reaches_advance
    obtain ⟨after', ran', ahead'⟩ := looks.of_done ahead ran enough
    rw [sequenceFrom_step _ _ _ _ _ second, ran']
    simp only [if_pos (ahead'.current?_eq enough ▸ separated)]
    exact continued (ahead'.advance enough) far
  | case4 items height first value more after ran other =>
    intro far
    obtain ⟨after', ran', ahead'⟩ := looks.of_done ahead ran far
    rw [sequenceFrom_step _ _ _ _ _ second, ran']
    simp only [if_neg (ahead'.current?_eq far ▸ other), ahead'.error_eq far]
    exact .failed ahead'

theorem sequence {separator : Token} {entry : Parser (Entry α β)}
    (looks : entry.LooksAhead settled) : (Parser.sequence separator entry).LooksAhead settled :=
  fun _ room _ _ ahead far => sequenceFrom looks room [] 0 ahead far

theorem list (close : Symbol) {item : Parser α} (looks : item.LooksAhead settled) :
    (Parser.list close item).LooksAhead settled := by
  have entry : (listEntry close item).LooksAhead settled := by
    refine bind (accept _) fun found => ?_
    rcases found with _ | stop
    · refine bind looks fun value => bind current fun found => ?_
      split
      · exact .pure
      · refine bind (accept _) fun found => ?_
        rcases found with _ | stop
        · exact .fail _
        · exact .pure
    · exact .pure
  exact bind (sequence entry) fun _ => .pure

theorem openedFrom {opener : Token} {item : Span → Parser α}
    (looks : ∀ span, (item span).LooksAhead settled) (room : Nat) (items : List α) (height : Nat)
    {first second : Cursor} (ahead : rests.Ahead settled first second) :
    rests.IsFar (Parser.openedFrom opener item room items height first).cursor →
    Outcome.Alike (rests.Ahead settled) (Parser.openedFrom opener item room items height first)
      (Parser.openedFrom opener item room items height second) := by
  fun_induction Parser.openedFrom opener item room items height first generalizing second with
  | case1 items height first opened error after ran =>
    intro far
    have enough := far.before (first.reaches_advance.trans (reaches_of_failed ran))
    obtain ⟨after', ran', ahead'⟩ := (looks first.span).of_failed (ahead.advance enough) ran far
    rw [openedFrom_step _ _ _ _ _ second, if_pos (ahead.current?_eq enough ▸ opened),
      ← ahead.span_eq enough, ran']
    exact .failed ahead'
  | case2 items height first opened value more after ran continued =>
    intro far
    have behind := far.before (reaches_openedFrom _ _ _ _ _ _)
    have enough := behind.before (first.reaches_advance.trans (reaches_of_done ran))
    obtain ⟨after', ran', ahead'⟩ := (looks first.span).of_done (ahead.advance enough) ran behind
    rw [openedFrom_step _ _ _ _ _ second, if_pos (ahead.current?_eq enough ▸ opened),
      ← ahead.span_eq enough, ran']
    exact continued ahead' far
  | case3 items height first other =>
    intro far
    rw [openedFrom_step _ _ _ _ _ second, if_neg (ahead.current?_eq far ▸ other)]
    exact .done ahead

theorem opened {opener : Token} {item : Span → Parser α}
    (looks : ∀ span, (item span).LooksAhead settled) :
    (Parser.opened opener item).LooksAhead settled :=
  fun _ room _ _ ahead far => openedFrom looks room [] 0 ahead far

theorem untilEndFrom {item : Parser α} {advances : item.Advances} (looks : item.LooksAhead settled)
    (room : Nat) (items : List α) (height : Nat) {first second : Cursor}
    (ahead : rests.Ahead settled first second) :
    rests.IsFar (Parser.untilEndFrom item advances room items height first).cursor →
    Outcome.Alike (rests.Ahead settled) (Parser.untilEndFrom item advances room items height first)
      (Parser.untilEndFrom item advances room items height second) := by
  fun_induction Parser.untilEndFrom item advances room items height first generalizing second with
  | case1 items height first ended =>
    intro far
    rw [untilEndFrom_step _ _ _ _ _ second, (ahead.ended_iff far).mp ended]
    exact .done ahead
  | case2 items height first token rest more error after ran =>
    intro far
    have enough := far.before (reaches_of_failed ran)
    obtain ⟨after', ran', ahead'⟩ := looks.of_failed ahead ran far
    have goes := mt (ahead.ended_iff enough).mpr (more ▸ List.cons_ne_nil token rest)
    obtain ⟨token', rest', more'⟩ := List.exists_cons_of_ne_nil goes
    rw [untilEndFrom_step _ _ _ _ _ second, more', ran']
    exact .failed ahead'
  | case3 items height first token rest more value height' after ran continued =>
    intro far
    have behind := far.before (reaches_untilEndFrom _ _ _ _ _ _)
    have enough := behind.before (reaches_of_done ran)
    obtain ⟨after', ran', ahead'⟩ := looks.of_done ahead ran behind
    have goes := mt (ahead.ended_iff enough).mpr (more ▸ List.cons_ne_nil token rest)
    obtain ⟨token', rest', more'⟩ := List.exists_cons_of_ne_nil goes
    rw [untilEndFrom_step _ _ _ _ _ second, more', ran']
    exact continued ahead' far

theorem untilEnd {item : Parser α} {advances : item.Advances} (looks : item.LooksAhead settled) :
    (Parser.untilEnd item advances).LooksAhead settled :=
  fun _ room _ _ ahead far => untilEndFrom looks room [] 0 ahead far

end LooksAhead

end Parser

end ContractSyntax
