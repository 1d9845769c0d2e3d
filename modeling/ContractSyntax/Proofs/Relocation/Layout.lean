/-
**Layout makes no difference.**

Two texts with the same tokens may put them anywhere: on other lines, with other gaps and comments
between them. Numbering the tokens takes both texts to the same tokens at the same places, so whatever
reads them is in step. Without its spans, what is read from one text is then what is read from the
other, and an error in one is the same error, at the same token, in the other.

* `Layouts`: two texts that differ in their layout only;
* `Layouts.Alike`: the same error at the same token;
* `layout_irrelevant`: programs, expressions, types, patterns and contracts, and programs under options.
-/

import ContractSyntax.Proofs.Failure.Prefix
import ContractSyntax.Proofs.Recovery.Diagnostics
import ContractSyntax.Proofs.Relocation.Ranks
import ContractSyntax.Proofs.Relocation.Steps
import Mathlib.Data.List.Forall2

namespace ContractSyntax

/-- Two texts whose tokens are the same but for their places. -/
structure Layouts where
  first : String
  second : String
  tokens : Tokens
  others : Tokens
  lexed : tokenize first = .ok tokens
  lexed' : tokenize second = .ok others
  same : tokens.map Spanned.node = others.map Spanned.node

/-- Whether two results are trees that are equal without their spans, or errors that are alike. -/
inductive Agree {ε α : Type} [Relocate α] (alike : ε → ε → Prop) : Except ε α → Except ε α → Prop
  | ok {value other : α} (same : relocate .erasure value = relocate .erasure other) :
      Agree alike (.ok value) (.ok other)
  | error {error other : ε} (same : alike error other) : Agree alike (.error error) (.error other)

theorem Parser.LooksAhead.whole {α : Type} {parser : Parser α} (looks : parser.LooksAhead False) :
    parser.whole.LooksAhead False := by
  have ended : Parser.endOfInput.LooksAhead False := by
    refine .bind .current fun found => ?_
    cases found with
    | none => exact .pure
    | some => exact .fail _
  exact .bind looks fun _ => .bind ended fun _ => .pure

/-- A text is read by running over its tokens, with nothing noted before. -/
theorem readAll_start {α : Type} {parser : Parser α} (looks : parser.LooksAhead False)
    {source : String} {tokens : Tokens} (lexed : tokenize source = .ok tokens) :
    (readAll parser source).value =
      (parser.whole.start (.start source.utf8ByteSize tokens)).1.mapError .syntactic := by
  have alike : Session.Alike False
      (.fresh (.ofSource source.utf8ByteSize tokens [.tokenized source.utf8ByteSize tokens.length]))
      (.ofTokens source.utf8ByteSize tokens) := ⟨rfl, ⟨rfl, rfl, nofun⟩, nofun⟩
  have same := (alike.read looks.whole).1
  simp only [readAll, readTokens_of_ok lexed]
  exact congrArg (Except.mapError SourceError.syntactic) same

theorem Session.errorsFound_isAt {size : Nat} {tokens : Tokens} {error : SyntaxError}
    (found : error ∈ (Session.ofTokens size tokens).errorsFound) :
    ∃ index, error.IsAt size tokens index := by
  obtain ⟨cause, place, rfl, before, passes⟩ := errorsFound_located found
  exact ⟨before.length, passes.isAt cause⟩

namespace Layouts

/-- Whether errors in the two texts say the same and stand at tokens with the same index. -/
structure Alike (texts : Layouts) (error other : SyntaxError) : Prop where
  message : error.message = other.message
  expected : error.cause.expected.map Expected.text = other.cause.expected.map Expected.text
  found : Token.describeFound error.found = Token.describeFound other.found
  place : ∃ index, error.IsAt texts.first.utf8ByteSize texts.tokens index ∧
    other.IsAt texts.second.utf8ByteSize texts.others index

/-- The same for errors of texts: both texts are sequences of tokens. -/
inductive AlikeSource (texts : Layouts) : SourceError → SourceError → Prop
  | syntactic {error other : SyntaxError} (same : texts.Alike error other) :
      AlikeSource texts (.syntactic error) (.syntactic other)

variable (texts : Layouts)

/-! ### Both texts in step -/

theorem inStep_erasure : Session.InStep .erasure .erasure
    (.ofTokens texts.first.utf8ByteSize texts.tokens)
    (.ofTokens texts.second.utf8ByteSize texts.others) := by
  refine ⟨rfl, ⟨?_, rfl, nofun⟩⟩
  show relocate .erasure texts.tokens = relocate .erasure texts.others
  rw [relocate_erasure_tokens, relocate_erasure_tokens, texts.same]

theorem inStep_ranks : Session.InStep (Tokens.ranks texts.tokens) (Tokens.ranks texts.others)
    (.ofTokens texts.first.utf8ByteSize texts.tokens)
    (.ofTokens texts.second.utf8ByteSize texts.others) := by
  have between := between_of_tokenize texts.lexed
  have between' := between_of_tokenize texts.lexed'
  refine ⟨rfl, ⟨Tokens.relocate_ranks_eq between between' texts.same, ?_, nofun⟩⟩
  have count := congrArg List.length texts.same
  rw [List.length_map, List.length_map] at count
  exact (Tokens.ranks_end between).trans (count.trans (Tokens.ranks_end between').symm)

/-! ### Errors -/

variable {texts}

/-- Errors of the two texts that are the same once the tokens are numbered. -/
theorem alike_of_ranks {error other : SyntaxError}
    (ranked : relocate (Tokens.ranks texts.tokens) error =
      relocate (Tokens.ranks texts.others) other)
    (located : ∃ index, error.IsAt texts.first.utf8ByteSize texts.tokens index)
    (located' : ∃ index, other.IsAt texts.second.utf8ByteSize texts.others index) :
    texts.Alike error other := by
  obtain ⟨index, isAt⟩ := located
  obtain ⟨index', isAt'⟩ := located'
  have cause : error.cause = other.cause := (congrArg SyntaxError.cause ranked :)
  have found : error.found = other.found := (congrArg SyntaxError.found ranked :)
  have start := congrArg (fun error : SyntaxError => error.span.start) ranked
  have same : index = index' :=
    (isAt.rank (between_of_tokenize texts.lexed)).symm.trans
      (start.trans (isAt'.rank (between_of_tokenize texts.lexed')))
  refine ⟨?_, by rw [cause], by rw [found], index, isAt, same ▸ isAt'⟩
  rw [SyntaxError.message, SyntaxError.message, cause, found]

theorem alike_of_ranks_list {errors others : List SyntaxError}
    (ranked : relocate (Tokens.ranks texts.tokens) errors =
      relocate (Tokens.ranks texts.others) others)
    (located : ∀ error ∈ errors, ∃ index, error.IsAt texts.first.utf8ByteSize texts.tokens index)
    (located' : ∀ other ∈ others, ∃ index, other.IsAt texts.second.utf8ByteSize texts.others index) :
    List.Forall₂ texts.Alike errors others := by
  induction errors generalizing others with
  | nil =>
    cases others with
    | nil => exact .nil
    | cons => cases ranked
  | cons error errors continued =>
    cases others with
    | nil => cases ranked
    | cons other others =>
      obtain ⟨here, located⟩ := List.forall_mem_cons.mp located
      obtain ⟨there, located'⟩ := List.forall_mem_cons.mp located'
      obtain ⟨first, rest⟩ := List.cons.inj ranked
      exact .cons (alike_of_ranks first here there) (continued rest located located')

theorem agree_syntactic {α : Type} [Relocate α] {result other : Except SyntaxError α}
    (agree : Agree texts.Alike result other) :
    Agree texts.AlikeSource (result.mapError .syntactic) (other.mapError .syntactic) := by
  cases agree with
  | ok same => exact .ok same
  | error same => exact .error (.syntactic same)

/-! ### Whole texts read by one parser -/

section Whole

variable {α : Type} [Relocate α] {parser : Parser α} {category : Category}

theorem agree_start (looks : parser.LooksAhead False)
    (moves : ∀ move, Parser.Moves move parser parser)
    (located : parser.PassesBeginning category) :
    Agree texts.Alike (parser.start (.start texts.first.utf8ByteSize texts.tokens)).1
      (parser.start (.start texts.second.utf8ByteSize texts.others)).1 := by
  have erased := (texts.inStep_erasure.read looks (moves _) (moves _)).1
  have ranked := (texts.inStep_ranks.read looks (moves _) (moves _)).1
  change relocate .erasure (parser.start _).1 = relocate .erasure (parser.start _).1 at erased
  change relocate _ (parser.start _).1 = relocate _ (parser.start _).1 at ranked
  rcases ran : parser.start (.start texts.first.utf8ByteSize texts.tokens) with
    ⟨error | value, after⟩ <;>
  rcases ran' : parser.start (.start texts.second.utf8ByteSize texts.others) with
    ⟨error' | value', after'⟩ <;>
  rw [ran, ran'] at erased ranked
  · obtain ⟨index, isAt, _⟩ := located _ _ _ _ ran
    obtain ⟨index', isAt', _⟩ := located _ _ _ _ ran'
    exact .error (alike_of_ranks (Except.error.inj ranked) ⟨index, isAt⟩ ⟨index', isAt'⟩)
  · cases erased
  · cases erased
  · exact .ok (Except.ok.inj erased)

/-- A text is read alike in both layouts by a parser and the end of the input behind it. -/
theorem agree_readAll (looks : parser.LooksAhead False)
    (moves : ∀ move, Parser.Moves move parser parser)
    (follows : ∀ cursor, parser.Follows cursor [.of category]) (productive : category.IsProductive) :
    Agree texts.AlikeSource (readAll parser texts.first).value
      (readAll parser texts.second).value := by
  rw [readAll_start looks texts.lexed, readAll_start looks texts.lexed']
  exact agree_syntactic (agree_start looks.whole (fun move => (moves move).whole)
    (.of_fails productive fun cursor => .whole (follows cursor)))

end Whole

/-! ### Programs -/

/-- What the attempts find in the two layouts. -/
theorem found_alike (texts : Layouts) :
    let first := Session.ofTokens texts.first.utf8ByteSize texts.tokens
    let second := Session.ofTokens texts.second.utf8ByteSize texts.others
    relocate .erasure first.itemsFound = relocate .erasure second.itemsFound ∧
      List.Forall₂ texts.Alike first.errorsFound second.errorsFound :=
  ⟨texts.inStep_erasure.found.1, alike_of_ranks_list texts.inStep_ranks.found.2
    (fun _ => Session.errorsFound_isAt) fun _ => Session.errorsFound_isAt⟩

theorem agree_program (file file' : String) (events events' : List Event) :
    Agree texts.Alike
      (readProgramTokens file texts.first.utf8ByteSize texts.tokens events).value
      (readProgramTokens file' texts.second.utf8ByteSize texts.others events').value := by
  obtain ⟨items, errors⟩ := texts.found_alike
  rw [stopped_value, stopped_value]
  generalize (Session.ofTokens texts.first.utf8ByteSize texts.tokens).errorsFound = found,
    (Session.ofTokens texts.second.utf8ByteSize texts.others).errorsFound = found' at errors
  cases errors with
  | nil => exact .ok (congrArg Program.mk items)
  | cons first _ => exact .error first

theorem agree_collect (options : ParseOptions) (file file' : String) (events events' : List Event) :
    Agree (List.Forall₂ texts.Alike)
      (collectProgramTokens options file texts.first.utf8ByteSize texts.tokens events).value
      (collectProgramTokens options file' texts.second.utf8ByteSize texts.others events').value := by
  obtain ⟨items, errors⟩ := texts.found_alike
  rw [collected_value, collected_value]
  generalize (Session.ofTokens texts.first.utf8ByteSize texts.tokens).errorsFound = found,
    (Session.ofTokens texts.second.utf8ByteSize texts.others).errorsFound = found' at errors
  cases errors with
  | nil => exact .ok (congrArg Program.mk items)
  | cons first rest => exact .error (.cons first (List.forall₂_take _ rest))

theorem agree_readProgram (file file' : String) :
    Agree texts.AlikeSource (readProgram file texts.first).value
      (readProgram file' texts.second).value := by
  unfold readProgram
  rw [readTokens_of_ok texts.lexed, readTokens_of_ok texts.lexed']
  exact agree_syntactic (agree_program file file' _ _)

end Layouts

open Layouts in
/-- **Layout makes no difference.** Of two texts with the same tokens, wherever these are written, every
entry point makes trees that are equal without their spans, or errors with the same words at the same
token. Under any options it reports as many errors in one as in the other, each alike. -/
theorem layout_irrelevant (texts : Layouts) :
    (∀ file file', Agree texts.AlikeSource (readProgram file texts.first).value
      (readProgram file' texts.second).value) ∧
    Agree texts.AlikeSource (readExpr texts.first).value (readExpr texts.second).value ∧
    Agree texts.AlikeSource (readType texts.first).value (readType texts.second).value ∧
    Agree texts.AlikeSource (readPattern texts.first).value (readPattern texts.second).value ∧
    Agree texts.AlikeSource (readContract texts.first).value (readContract texts.second).value ∧
    ∀ options file file' events events', Agree (List.Forall₂ texts.Alike)
      (collectProgramTokens options file texts.first.utf8ByteSize texts.tokens events).value
      (collectProgramTokens options file' texts.second.utf8ByteSize texts.others events').value := by
  refine ⟨agree_readProgram, ?_, ?_, ?_, ?_, agree_collect⟩
  · exact agree_readAll .expression (fun _ => .expression) (fun _ => .expression) trivial
  · exact agree_readAll .type (fun _ => .type) (fun _ => .type) trivial
  · exact agree_readAll .pattern (fun _ => .pattern) (fun _ => Level.Follows.pattern) trivial
  · exact agree_readAll .contract? (fun _ => .contract?) (fun _ => .contract?) trivial

theorem layout_irrelevant_of_comment :
    ∃ texts : Layouts, texts.first = "1+" ∧ texts.second = "1 // one\n+ " ∧
      ∃ error other, (readExpr texts.first).value = .error (.syntactic error) ∧
        (readExpr texts.second).value = .error (.syntactic other) ∧ texts.Alike error other := by
  let texts : Layouts := {
    first := "1+"
    second := "1 // one\n+ "
    tokens := [⟨.int "1", 0, 1⟩, ⟨.symbol .plus, 1, 2⟩]
    others := [⟨.int "1", 0, 1⟩, ⟨.symbol .plus, 9, 10⟩]
    lexed := ok_of_toOption (by decide +kernel)
    lexed' := ok_of_toOption (by decide +kernel)
    same := rfl }
  have fails : (readExpr texts.first).value.isOk = false := by decide +kernel
  have agree := (layout_irrelevant texts).2.1
  refine ⟨texts, rfl, rfl, ?_⟩
  generalize (readExpr texts.first).value = first, (readExpr texts.second).value = second
    at agree fails
  cases agree with
  | ok => cases fails
  | error same =>
    cases same with
    | @syntactic error other same => exact ⟨error, other, rfl, rfl, same⟩

end ContractSyntax
