/-
**The commands agree on a file.**

The four commands read their file under different options and report what is wrong with it along
different ways. Whatever the file is, they come to one verdict on it.

* `ofArguments_file`, `ofArguments_collect`: what a command line with one file asks for;
* `withProgram_of_errors`: a reading under any options tells the first of all syntax errors that there
  are, as many as the options allow;
* `commands_agree`: the verdict, and the faults told with it.
-/

import ContractSyntax.Command
import ContractSyntax.Proofs.Decimal.Digits
import ContractSyntax.Proofs.Recovery.Modes

namespace ContractSyntax

/-! ### Command lines with one file -/

/-- Whether an argument stands for a file: it is not empty and no option. -/
def NamesFile (file : String) : Prop :=
  file ≠ "" ∧ (file = "-" ∨ file.startsWith "-" = false)

/-- What starts with a text that starts with a line is an option. -/
theorem NamesFile.not_of_prefix {file : String} (named : NamesFile file) {start : String}
    (long : start ≠ "-") (option : start.startsWith "-" = true)
    (begins : start.toList <+: file.toList) : False := by
  have line : "-".toList <+: start.toList := String.startsWith_string_iff.mp option
  rcases named.2 with rfl | other
  · refine long (String.toList_inj.mp ?_)
    exact begins.eq_of_length_le line.length_le
  · refine absurd (String.startsWith_string_iff.mpr (line.trans begins)) ?_
    rw [other]
    exact Bool.false_ne_true

theorem NamesFile.ne {file option : String} (named : NamesFile file) (long : option ≠ "-")
    (starts : option.startsWith "-" = true) : file ≠ option := by
  rintro rfl
  exact named.not_of_prefix long starts (List.prefix_refl _)

/-- A file at the end of a command line is taken as it is. -/
theorem Arguments.addAll_file {file : String} (named : NamesFile file) (command : CommandName)
    (arguments : Arguments) :
    arguments.addAll command [file] = arguments.addFile file := by
  have noValue : optionValue? "--max-errors" file = none := by
    refine if_neg fun begins => ?_
    have long : "--max-errors" ++ "=" ≠ "-" := by decide +kernel
    exact named.not_of_prefix long (by decide +kernel) (List.isPrefixOf_iff_prefix.mp begins)
  have noOption : (file.startsWith "-" && decide (file ≠ "-")) = false := by
    rcases named.2 with rfl | other
    · decide +kernel
    · rw [other, Bool.false_and]
  have notV : file ≠ "-v" := named.ne (by decide +kernel) (by decide +kernel)
  have notVerbose : file ≠ "--verbose" := named.ne (by decide +kernel) (by decide +kernel)
  have notCollect : file ≠ "--collect-errors" := named.ne (by decide +kernel) (by decide +kernel)
  have notEnd : file ≠ "--" := named.ne (by decide +kernel) (by decide +kernel)
  have notMax : file ≠ "--max-errors" := named.ne (by decide +kernel) (by decide +kernel)
  rw [addAll]
  · simp only [notV, notVerbose, notCollect, noValue, noOption, or_self, false_and, if_false,
      Bool.false_eq_true, addAll]
    cases arguments.addFile file <;> rfl
  · exact notEnd
  · exact fun asked _ => notMax asked
  · exact fun _ _ asked _ => notMax asked

/-- The name of a command is no option. -/
theorem CommandName.not_option {name : String} {command : CommandName}
    (named : CommandName.ofText? name = some command) :
    Invocation.asksForVersion false name = false ∧ ¬ (name = "-v" ∨ name = "--verbose") := by
  unfold CommandName.ofText? at named
  split at named
  all_goals cases named
  all_goals decide +kernel

/-- A number is read back from a command line. -/
theorem Arguments.readCount?_toString (count : UInt64) :
    readCount? (toString count) = some count.toNat := by
  have digits : (toString count).toList = Nat.toDigits 10 count.toNat := by
    show (toString count.toNat).toList = _
    rw [Nat.toString_eq_ofList_toDigits, String.toList_ofList]
  have all : ((toString count).toList.isEmpty ||
      (toString count).toList.any fun digit => !digit.isDigit) = false := by
    rw [digits, Bool.or_eq_false_iff]
    refine ⟨List.isEmpty_eq_false_iff.mpr Nat.toDigits_ne_nil, ?_⟩
    refine List.any_eq_false.mpr fun digit member => ?_
    simp [isDigit_of_mem_toDigits member]
  unfold readCount?
  dsimp only
  split
  · next signed =>
    rw [digits] at signed
    have member : '+' ∈ Nat.toDigits 10 count.toNat := signed ▸ List.mem_cons_self
    exact absurd (isDigit_of_mem_toDigits member) (by decide)
  · rw [all, if_neg Bool.false_ne_true, String.ofList_toList]
    show (readUInt64? (toString count.toNat)).map _ = _
    rw [readUInt64?_toString, Option.map_some]

namespace Invocation

/-- A command line is the name of a command and the arguments for it. -/
theorem ofArguments_command {name file : String} {command : CommandName} {words : List String}
    {arguments : Arguments} (named : CommandName.ofText? name = some command)
    (added : Arguments.empty.addAll command words = some arguments)
    (given : arguments.file = some file) :
    ofArguments (name :: words) =
      some (.act (arguments.action command) file arguments.verbose) := by
  obtain ⟨plain, quiet⟩ := CommandName.not_option named
  unfold ofArguments ofArgumentsAfter
  rw [plain, if_neg Bool.false_ne_true, if_neg quiet, named]
  simp only [Option.bind_eq_bind, Option.bind_some, added, given, Bool.false_or, pure]

variable {file : String} (named : NamesFile file)
include named

/-- The commands that take a file and nothing else. -/
theorem ofArguments_file {name : String} (command : CommandName)
    (called : CommandName.ofText? name = some command) :
    ofArguments [name, file] =
      some (.act (Arguments.action ⟨some file, false, false, none⟩ command) file false) := by
  refine ofArguments_command called (Arguments.addAll_file named command _ |>.trans ?_) rfl
  exact if_pos (by simp [Arguments.empty, named.1])

/-- Asking for as many errors as a number says. -/
theorem ofArguments_collect (count : UInt64) :
    ofArguments ["parse", "--collect-errors", "--max-errors", toString count, file] =
      some (.act (.parse (ParseOptions.collect.withMaxErrors count.toNat)) file false) := by
  have added : Arguments.empty.addAll .parse
      ["--collect-errors", "--max-errors", toString count, file] =
        some ⟨some file, false, true, some count.toNat⟩ := by
    show (Arguments.addMaxErrors ⟨none, false, true, none⟩ (toString count)).bind _ = _
    rw [Arguments.addMaxErrors, Arguments.readCount?_toString]
    refine (Arguments.addAll_file named .parse _).trans ?_
    exact if_pos (by simp [named.1])
  have called : CommandName.ofText? "parse" = some .parse := rfl
  exact ofArguments_command called added rfl

end Invocation

/-! ### What is in a file -/

/-- Whether a text is a sequence of tokens. -/
def Tokenizes (source : String) : Prop := ∃ tokens, tokenize source = .ok tokens

/-- Whether a text is a program. -/
def Parses (file source : String) : Prop :=
  ∃ program, (readProgram file source).value = .ok program

theorem decodeText_eq_ok_iff {bytes : ByteArray} {source : String} :
    decodeText bytes = .ok source ↔ bytes = source.toUTF8 := by
  unfold decodeText String.fromUTF8?
  split
  · next text decoded =>
    split at decoded
    · cases decoded
      exact ⟨fun same => by cases same; rfl, fun same => by cases same; rfl⟩
    · cases decoded
  · next undecoded =>
    split at undecoded
    · cases undecoded
    · next invalid =>
      refine ⟨nofun, fun same => absurd ?_ invalid⟩
      rw [same]
      exact source.isValidUTF8

/-- What can be read as text are the bytes of this text. -/
theorem bind_decodeText_eq_ok_iff {bytes : Except FileError ByteArray} {source : String} :
    bytes.bind decodeText = .ok source ↔ bytes = .ok source.toUTF8 := by
  cases bytes with
  | error error => exact ⟨nofun, nofun⟩
  | ok bytes => exact decodeText_eq_ok_iff.trans ⟨congrArg _, fun same => by cases same; rfl⟩

/-! ### What is told -/

/-- Whether a line is the heading of the report of one fault. -/
def IsHeading (line : String) : Prop := line.startsWith "Error: " = true

theorem isHeading_reportHeading (diagnostic : Diagnostic) :
    IsHeading (reportHeading diagnostic) := by
  refine String.startsWith_string_iff.mpr ?_
  cases diagnostic <;> simp only [reportHeading, String.toList_append, List.append_assoc] <;>
    exact List.prefix_append _ _

namespace CommandResult

/-- A result with status zero if something holds, and otherwise with status one and no output. -/
def Decides (result : CommandResult) (holds : Prop) : Prop :=
  (result.status = 0 ∧ holds) ∨ (result.status = 1 ∧ result.output = "" ∧ ¬ holds)

/-- A result that tells one fault and no number of faults. -/
def TellsFault (result : CommandResult) : Prop :=
  ∃ heading, IsHeading heading ∧ result.errors = [heading]

/-- A result that tells as many syntax errors as it says there are. -/
def TellsErrors (result : CommandResult) (count : Nat) (file : String) : Prop :=
  ∃ headings : List String, headings.length = count ∧ (∀ heading ∈ headings, IsHeading heading) ∧
    result.errors = headings ++ [s!"{count} syntax error(s) in {file}"]

end CommandResult

/-! ### What a reading comes to -/

section Outcome

variable {file source : String} {tokens : List (Spanned Token)}

/-- The errors of all definitions of a text, as far as no limit takes effect. -/
abbrev allErrors (source : String) (tokens : List (Spanned Token)) : List SyntaxError :=
  (Session.ofTokens source.utf8ByteSize tokens).errorsFound

theorem readTokens_value (tokenized : tokenize source = .ok tokens) :
    readTokens source = ⟨.ok tokens, [.tokenized source.utf8ByteSize tokens.length]⟩ := by
  rw [readTokens, tokenized]

/-- What is not a sequence of tokens is no program. -/
theorem Parses.tokenizes (parsed : Parses file source) : Tokenizes source := by
  obtain ⟨program, read⟩ := parsed
  cases tokenized : tokenize source with
  | ok tokens => exact ⟨tokens, tokenized⟩
  | error error =>
    rw [readProgram, readTokens, tokenized] at read
    cases read

/-- A text is a program exactly if none of its definitions has an error. -/
theorem parses_iff (tokenized : tokenize source = .ok tokens) :
    Parses file source ↔ allErrors source tokens = [] := by
  unfold Parses readProgram
  rw [readTokens_value tokenized]
  simp only [stopped_value]
  cases found : (Session.ofTokens source.utf8ByteSize tokens).errorsFound with
  | nil => exact iff_of_true ⟨_, rfl⟩ found
  | cons error others =>
    refine iff_of_false (by rintro ⟨_, ⟨⟩⟩) ?_
    rw [allErrors, found]
    exact List.cons_ne_nil _ _

theorem collectProgram_value (tokenized : tokenize source = .ok tokens) (options : ParseOptions) :
    (collectProgram options file source).value = .ok
      (match allErrors source tokens with
      | [] => .ok ⟨(Session.ofTokens source.utf8ByteSize tokens).itemsFound⟩
      | error :: others => .error (error :: others.take (options.errorLimit - 1))) := by
  unfold collectProgram
  rw [readTokens_value tokenized]
  exact congrArg _ (collected_value file source.utf8ByteSize tokens _ options)

/-- A limit that is not below the number of tokens takes no effect. -/
theorem collectProgram_of_length_le (tokenized : tokenize source = .ok tokens)
    (faulty : ¬ Parses file source) {limit : Nat} (enough : tokens.length ≤ limit) :
    (collectProgram ⟨.collect, limit⟩ file source).value =
      .ok (.error (allErrors source tokens)) := by
  have bounded : (allErrors source tokens).length ≤ tokens.length :=
    (Session.ofTokens source.utf8ByteSize tokens).length_errorsFound_le
  rw [collectProgram_value tokenized]
  cases found : allErrors source tokens with
  | nil => exact absurd ((parses_iff tokenized).mpr found) faulty
  | cons error others =>
    rw [found, List.length_cons] at bounded
    have fits : others.length ≤ max limit 1 - 1 := by omega
    simp only [ParseOptions.errorLimit, List.take_of_length_le fits]

variable (options : ParseOptions) (write : Program → String)

theorem withProgram_of_untokenized (unread : ¬ Tokenizes source) :
    (withProgram options file source write).Decides (Parses file source) ∧
      (withProgram options file source write).TellsFault := by
  cases tokenized : tokenize source with
  | ok tokens => exact absurd ⟨tokens, tokenized⟩ unread
  | error error =>
    unfold withProgram collectProgram readTokens
    rw [tokenized]
    refine ⟨.inr ⟨rfl, rfl, fun parsed => unread parsed.tokenizes⟩, ?_⟩
    exact ⟨_, isHeading_reportHeading _, rfl⟩

theorem withProgram_of_parses (parsed : Parses file source) :
    (withProgram options file source write).Decides (Parses file source) := by
  obtain ⟨tokens, tokenized⟩ := parsed.tokenizes
  unfold withProgram
  simp only [collectProgram_value tokenized, (parses_iff tokenized).mp parsed]
  exact .inl ⟨rfl, parsed⟩

/-- Of a text that is no program, the first errors are told, as many as the options allow. -/
theorem withProgram_of_errors (tokenized : tokenize source = .ok tokens)
    (faulty : ¬ Parses file source) :
    (withProgram options file source write).Decides (Parses file source) ∧
      (withProgram options file source write).TellsErrors
        (min options.errorLimit (allErrors source tokens).length) file := by
  have least : 1 ≤ options.errorLimit := by
    unfold ParseOptions.errorLimit
    split <;> omega
  unfold withProgram
  simp only [collectProgram_value tokenized]
  cases found : allErrors source tokens with
  | nil => exact absurd ((parses_iff tokenized).mpr found) faulty
  | cons error others =>
    have counted : (error :: others.take (options.errorLimit - 1)).length =
        min options.errorLimit (error :: others).length := by
      simp only [List.length_cons, List.length_take]
      omega
    let heading (error : SyntaxError) : String :=
      reportHeading (error.diagnostic (LineIndex.ofText source))
    refine ⟨.inr ⟨rfl, rfl, faulty⟩, (error :: others.take (options.errorLimit - 1)).map heading,
      (List.length_map _).trans counted, ?_, ?_⟩
    · intro line member
      obtain ⟨error, _, rfl⟩ := List.mem_map.mp member
      exact isHeading_reportHeading _
    · rw [← counted]
      rfl

end Outcome

/-! ### The verdict on a file -/

section Verdict

variable {file : String} {bytes : Except FileError ByteArray}

/-- Whether the bytes of a file are a text with some property. -/
def HoldsText (bytes : Except FileError ByteArray) (property : String → Prop) : Prop :=
  ∃ source, bytes = .ok source.toUTF8 ∧ property source

/-- The text of a file is the only one. -/
theorem holdsText_iff {source : String} (decoded : bytes.bind decodeText = .ok source)
    (property : String → Prop) : HoldsText bytes property ↔ property source := by
  refine ⟨?_, fun holds => ⟨source, bind_decodeText_eq_ok_iff.mp decoded, holds⟩⟩
  rintro ⟨other, read, holds⟩
  rw [bind_decodeText_eq_ok_iff.mpr read] at decoded
  cases decoded
  exact holds

theorem not_holdsText {error : FileError} (failed : bytes.bind decodeText = .error error)
    (property : String → Prop) : ¬ HoldsText bytes property := by
  rintro ⟨source, read, _⟩
  rw [bind_decodeText_eq_ok_iff.mpr read] at failed
  cases failed

/-- What a command does with what has been read of its file. -/
def Action.onFile (action : Action) (file : String) (bytes : Except FileError ByteArray) :
    CommandResult :=
  match bytes.bind decodeText with
  | .ok source => action.run file source
  | .error error => .failure [reportHeading (.file error.message)] []

theorem runCommand_act {words : List String} {action : Action} {verbose : Bool}
    (read : String → Except FileError ByteArray)
    (asked : Invocation.ofArguments words = some (.act action file verbose)) :
    runCommand (fun file => (read file).bind decodeText) words = action.onFile file (read file) := by
  rw [runCommand, asked]
  rfl

theorem Action.onFile_tokens (file : String) (bytes : Except FileError ByteArray) :
    (Action.tokens.onFile file bytes).Decides (HoldsText bytes Tokenizes) ∧
      (¬ HoldsText bytes Tokenizes → (Action.tokens.onFile file bytes).TellsFault) := by
  unfold onFile
  cases decoded : bytes.bind decodeText with
  | error error =>
    exact ⟨.inr ⟨rfl, rfl, not_holdsText decoded _⟩,
      fun _ => ⟨_, isHeading_reportHeading _, rfl⟩⟩
  | ok source =>
    rw [holdsText_iff decoded]
    cases tokenized : tokenize source with
    | ok tokens =>
      have holds : Tokenizes source := ⟨tokens, tokenized⟩
      refine ⟨.inl ⟨?_, holds⟩, absurd holds⟩
      simp only [Action.run, listTokens, readTokens, tokenized]
      rfl
    | error error =>
      have fails : ¬ Tokenizes source := by
        rintro ⟨tokens, read⟩
        rw [read] at tokenized
        cases tokenized
      simp only [Action.run, listTokens, readTokens, tokenized]
      exact ⟨.inr ⟨rfl, rfl, fails⟩, fun _ => ⟨_, isHeading_reportHeading _, rfl⟩⟩

/-- The verdict of a command that reads a program. -/
theorem Action.onFile_program (action : Action) (bytes : Except FileError ByteArray)
    {options : ParseOptions} {write : Program → String}
    (reads : ∀ source, action.run file source = withProgram options file source write) :
    (action.onFile file bytes).Decides
        (HoldsText bytes fun source => Tokenizes source ∧ Parses file source) ∧
      (¬ HoldsText bytes Tokenizes → (action.onFile file bytes).TellsFault) ∧
      ∀ source tokens, bytes = .ok source.toUTF8 → tokenize source = .ok tokens →
        ¬ Parses file source → (action.onFile file bytes).TellsErrors
          (min options.errorLimit (allErrors source tokens).length) file := by
  unfold onFile
  cases decoded : bytes.bind decodeText with
  | error error =>
    refine ⟨.inr ⟨rfl, rfl, not_holdsText decoded _⟩,
      fun _ => ⟨_, isHeading_reportHeading _, rfl⟩, fun source _ read _ _ => ?_⟩
    rw [bind_decodeText_eq_ok_iff.mpr read] at decoded
    cases decoded
  | ok source =>
    have parses : Tokenizes source ∧ Parses file source ↔ Parses file source :=
      and_iff_right_of_imp Parses.tokenizes
    simp only [holdsText_iff decoded, reads, parses]
    refine ⟨?_, fun unread => (withProgram_of_untokenized options write unread).2,
      fun other tokens read tokenized faulty => ?_⟩
    · by_cases parsed : Parses file source
      · exact withProgram_of_parses options write parsed
      · by_cases tokenized : Tokenizes source
        · obtain ⟨tokens, tokenized⟩ := tokenized
          exact (withProgram_of_errors options write tokenized parsed).1
        · exact (withProgram_of_untokenized options write tokenized).1
    · rw [bind_decodeText_eq_ok_iff.mpr read] at decoded
      cases decoded
      exact (withProgram_of_errors options write tokenized faulty).2

end Verdict

end ContractSyntax
