/-
**The scan as the longest matches of the rules.**

A token stands where it was read as it is written, and no rule matches more there than the token.
Between the tokens, before the first and behind the last stand blanks and comments alone, so nothing
of a text is lost. A text with a place where no rule matches, up to which it is scanned like that, is
no sequence of tokens, and the fault is told at that place.

* `Spanned.IsLongest`, `Gap`, `IsScan`: what tokens are the scan of a text;
* `Scans.longest_gaps`: the tokens that are written with a text are;
* `tokenize_isScan`: so are the tokens of a text, and those before its fault.
-/

import ContractSyntax.Diagnostic
import ContractSyntax.Proofs.Lexing.Rules

namespace ContractSyntax

/-! ### Longest matches -/

/-- Whether a rule matches what stands in a source at a span. -/
def LexicalRule.MatchesAt (rule : LexicalRule) (source : String) (span : Span) : Prop :=
  ∃ text, span.Cuts source text ∧ text.toList ∈ rule.language

/-- Whether a token is what the rules make of the longest text that one of them matches where the
token starts. -/
structure Spanned.IsLongest (source : String) (place : Spanned Token) : Prop where
  cuts : place.span.Cuts source place.node.text
  matched : ∃ rule : LexicalRule, place.node.text.toList ∈ rule.language
  made : ∀ rule : LexicalRule, place.node.text.toList ∈ rule.language →
    rule.token? place.node.text.toList = some place.node
  longest : ∀ (rule : LexicalRule) (span : Span), rule.MatchesAt source span →
    span.start = place.span.start → span.stop ≤ place.span.stop

/-- What a rule matches at an offset is at the head of what stands behind it. -/
theorem LexicalRule.MatchesAt.prefix_of_start {rule : LexicalRule} {source : String} {span : Span}
    {passed rest : List Char} (matched : rule.MatchesAt source span)
    (written : source.toList = passed ++ rest) (start : span.start = byteLength passed) :
    ∃ text, text ∈ rule.language ∧ text <+: rest ∧ span.stop = span.start + byteLength text := by
  obtain ⟨text, cuts, member⟩ := matched
  obtain ⟨before, after, written', start', stop⟩ := Span.cuts_iff.mp cuts
  rw [written, List.append_assoc] at written'
  obtain ⟨_, same⟩ := append_inj_of_byteLength written' (start.symm.trans start'.symm)
  exact ⟨text.toList, member, ⟨after, same.symm⟩, stop.symm⟩

theorem byteLength_le_of_prefix {first second : List Char} (before : first <+: second) :
    byteLength first ≤ byteLength second := by
  obtain ⟨rest, rfl⟩ := before
  rw [byteLength_append]
  exact Nat.le_add_right _ _

/-- A token that ends where the rest begins is the longest where it is written. -/
theorem Token.isLongest_of_stops {token : Token} {source : String} {passed rest : List Char}
    (wellFormed : token.WellFormed) (stops : token.Stops rest)
    (written : source.toList = passed ++ (token.text.toList ++ rest)) :
    Spanned.IsLongest source
      ⟨token, byteLength passed, byteLength passed + token.text.utf8ByteSize⟩ where
  cuts := by
    refine Span.cuts_iff.mpr ⟨passed, rest, by rw [written, List.append_assoc], rfl, ?_⟩
    rw [byteLength_toList]
  matched := wellFormed.exists_rule
  made _ matched := LexicalRule.token?_eq wellFormed matched
  longest rule span matched start := by
    obtain ⟨text, member, before, stop⟩ := matched.prefix_of_start written start
    have shorter := LexicalRule.length_le wellFormed stops member before
    have inside := List.prefix_of_prefix_length_le before (List.prefix_append _ rest) shorter
    have length := byteLength_le_of_prefix inside
    rw [byteLength_toList] at length
    rw [stop, start]
    exact Nat.add_le_add_left length _

/-! ### Gaps -/

/-- Whether a text before another is blanks and comments, each comment up to the end of its line. -/
inductive Gap (behind : List Char) : List Char → Prop
  | nil : Gap behind []
  | blank {first : Char} {rest : List Char} (blank : isBlank first = true)
      (continued : Gap behind rest) : Gap behind (first :: rest)
  | comment {comment rest : List Char} (matched : comment ∈ LexicalRule.comment.language)
      (ended : ∀ next, (rest ++ behind).head? = some next → next = '\n')
      (continued : Gap behind rest) : Gap behind (comment ++ rest)

/-- Whether a gap stands in a source between two offsets. -/
def GapAt (source : String) (low high : Nat) : Prop :=
  ∃ before gap after, source.toList = before ++ gap ++ after ∧ byteLength before = low ∧
    low + byteLength gap = high ∧ Gap after gap

/-- Whether gaps stand before, between and behind tokens, from one offset to another. -/
def Tokens.Gaps (source : String) (high : Nat) : Nat → Tokens → Prop
  | low, [] => GapAt source low high
  | low, place :: rest =>
    GapAt source low place.span.start ∧ Gaps source high place.span.stop rest

theorem Gap.of_takeComment? {comment rest behind : List Char}
    (taken : takeComment? (comment ++ (rest ++ behind)) = some (comment, rest ++ behind))
    (gap : Gap behind rest) : Gap behind (comment ++ rest) := by
  obtain ⟨⟨body, rfl, within⟩, ended⟩ := takeComment?_eq_some_iff.mp taken
  have matched := mem_oneOf_kstar.mpr (forall_bne_iff.mpr within)
  exact .comment (mem_only_mul.mpr ⟨body, rfl, matched⟩) ended gap

/-- What makes up a gap with every gap that stands behind it, does so in a source. -/
theorem GapAt.extend {source : String} {passed rest : List Char} {high : Nat}
    (skipped : List Char) (written : source.toList = passed ++ (skipped ++ rest))
    (extend : ∀ gap after, rest = gap ++ after → Gap after gap → Gap after (skipped ++ gap))
    (gap : GapAt source (byteLength passed + byteLength skipped) high) :
    GapAt source (byteLength passed) high := by
  obtain ⟨before, gap, after, written', start, stop, isGap⟩ := gap
  rw [written, ← List.append_assoc, List.append_assoc before] at written'
  rw [← byteLength_append] at start
  obtain ⟨rfl, same⟩ := append_inj_of_byteLength written' start.symm
  refine ⟨passed, skipped ++ gap, after, ?_, rfl, ?_, extend gap after same isGap⟩
  · rw [written, same, List.append_assoc, List.append_assoc]
  · rw [byteLength_append, ← Nat.add_assoc, stop]

/-- The first gap may begin further left. -/
theorem Tokens.Gaps.extend {source : String} {low middle high : Nat} {tokens : Tokens}
    (gaps : Gaps source high middle tokens)
    (extend : ∀ stop, GapAt source middle stop → GapAt source low stop) :
    Gaps source high low tokens := by
  cases tokens with
  | nil => exact extend high gaps
  | cons place rest => exact ⟨extend _ gaps.1, gaps.2⟩

/-! ### What is written in a text -/

/-- Whether tokens are the scan of a source up to an offset. -/
structure IsScan (source : String) (stop : Nat) (tokens : Tokens) : Prop where
  between : tokens.Between 0 stop
  longest : ∀ place ∈ tokens, place.IsLongest source
  gaps : tokens.Gaps source stop 0

namespace Scans

variable {source : String} {offset : Nat} {behind characters : List Char} {tokens : Tokens}

/-- The tokens that are written are the longest matches, and gaps stand around them. -/
theorem longest_gaps (scans : Scans behind offset characters tokens) (passed : List Char)
    (written : source.toList = passed ++ (characters ++ behind)) (start : byteLength passed = offset) :
    (∀ place ∈ tokens, place.IsLongest source) ∧
      tokens.Gaps source (offset + byteLength characters) offset := by
  -- What has been passed grows along the induction, so that each step knows where in the source it is.
  induction scans generalizing passed with
  | nil offset =>
    have here : GapAt source offset offset :=
      ⟨passed, [], behind, by simpa using written, start, rfl, .nil⟩
    exact ⟨List.forall_mem_nil _, here⟩
  | @blank offset first rest _ blank _ continued =>
    have length : byteLength [first] = first.utf8Size := Nat.zero_add _
    obtain ⟨longest, gaps⟩ := continued (passed ++ [first]) (by simpa using written)
      (by rw [byteLength_append, start, length])
    rw [byteLength_cons, ← Nat.add_assoc]
    subst start
    refine ⟨longest, gaps.extend fun stop gap => GapAt.extend [first] written ?_ (length ▸ gap)⟩
    exact fun _ _ _ isGap => .blank blank isGap
  | @comment offset comment rest _ taken _ continued =>
    obtain ⟨longest, gaps⟩ := continued (passed ++ comment) (by simpa using written)
      (by rw [byteLength_append, start])
    rw [byteLength_append, ← Nat.add_assoc]
    rw [List.append_assoc] at written
    subst start
    refine ⟨longest, gaps.extend fun stop gap => GapAt.extend comment written ?_ gap⟩
    intro gap after same isGap
    rw [same] at taken
    exact .of_takeComment? taken isGap
  | @token offset token rest _ wellFormed stops _ continued =>
    obtain ⟨longest, gaps⟩ := continued (passed ++ token.text.toList)
      (by simpa using written) (by rw [byteLength_append, start, byteLength_toList])
    rw [byteLength_append, byteLength_toList, ← Nat.add_assoc]
    rw [List.append_assoc] at written
    have here := Token.isLongest_of_stops wellFormed stops written
    rw [start] at here
    have gap : GapAt source offset offset :=
      ⟨passed, [], _, by simpa using written, start, rfl, .nil⟩
    exact ⟨List.forall_mem_cons.mpr ⟨here, longest⟩, gap, gaps⟩

/-- The tokens that are written up to an offset are the scan up to there. -/
theorem isScan (scans : Scans behind 0 characters tokens)
    (written : source.toList = characters ++ behind) :
    IsScan source (byteLength characters) tokens := by
  obtain ⟨longest, gaps⟩ := scans.longest_gaps [] written rfl
  have between := scans.between
  rw [Nat.zero_add] at gaps between
  exact ⟨between, longest, gaps⟩

end Scans

/-- **The scan.** The tokens of a text lie one after the other in it, each is the longest match of
the rules where it starts, and blanks and comments alone stand around them. A text that has no
tokens is scanned like that up to a place where no rule matches, at which its fault is told: a string
that does not end if a quote stands there, and otherwise the character. -/
theorem tokenize_isScan (source : String) :
    match tokenize source with
    | .ok tokens => IsScan source source.utf8ByteSize tokens
    | .error error =>
      ∃ (before after : String) (first : Char) (tokens : Tokens),
        source = before ++ String.singleton first ++ after ∧
          IsScan source before.utf8ByteSize tokens ∧
          (∀ (rule : LexicalRule) (span : Span), rule.MatchesAt source span →
            span.start ≠ before.utf8ByteSize) ∧
          error.diagnostic (.ofText source) =
            let start := before.utf8ByteSize
            let position := (LineIndex.ofText source).position start
            if first = '"' then
              .lexical "unterminated string literal" ⟨start, source.utf8ByteSize⟩ position
            else
              .lexical ("unexpected character: " ++ quoteCharacter first)
                ⟨start, start + first.utf8Size⟩ position := by
  obtain ⟨passed, behind, tokens, written, scans, ended⟩ := exists_scans 0 source.toList
  have isScan := scans.isScan written
  have scanned := scans.scan []
  rw [← written] at scanned
  rw [tokenize, scanned]
  cases behind with
  | nil =>
    rw [List.append_nil] at written
    rw [← written, byteLength_toList] at isScan
    rw [scan, List.append_nil, List.reverse_reverse]
    exact isScan
  | cons first after =>
    have stuck : Stuck (first :: after) := ended.resolve_left (List.cons_ne_nil _ _)
    have length : byteLength passed + byteLength (first :: after) = source.utf8ByteSize := by
      rw [← byteLength_append, ← written, byteLength_toList]
    rw [scan_stuck stuck, Nat.zero_add, length]
    rw [byteLength_eq] at isScan ⊢
    refine ⟨String.ofList passed, String.ofList after, first, tokens, ?_, isScan, ?_, ?_⟩
    · rw [← String.toList_inj, written]
      simp [String.toList_append]
    · intro rule span matched start
      rw [← byteLength_eq] at start
      obtain ⟨text, member, before, _⟩ := matched.prefix_of_start written start
      exact LexicalRule.not_prefix_of_stuck stuck member before
    · by_cases quote : first = '"'
      · rw [if_pos quote, if_pos quote]
        rfl
      · rw [if_neg quote, if_neg quote]
        rfl

example :
    (tokenize "1..<2.5 / x // y").toOption.map (List.map Spanned.node) =
      some [.int "1", .symbol .dotDotLess, .float "2.5", .symbol .slash, .ident "x"] := by
  decide +kernel

end ContractSyntax
