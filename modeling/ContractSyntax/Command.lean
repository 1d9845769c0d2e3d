/-
**The command line.**

Four commands read one file each: `tokens` lists its tokens, `parse` writes its tree as data,
`check` says whether it is a program, and `print` writes it in the standard layout. A command
succeeds with status zero; faults in the file give status one, and faults in the command line status
two.
-/

import ContractSyntax.Serial.Encode
import ContractSyntax.Serial.Text
import ContractSyntax.Source
import ContractSyntax.Tree.Printer

namespace ContractSyntax

/-! ### Command lines -/

/-- What to do with a file. -/
inductive Action where
  | tokens
  | parse (options : ParseOptions)
  | check
  | print
  deriving DecidableEq, Inhabited, Repr

/-- A command line that makes sense. -/
inductive Invocation where
  | version
  /-- A file, what to do with it, and whether to log on the way. -/
  | act (action : Action) (file : String) (verbose : Bool)
  deriving DecidableEq, Inhabited, Repr

/-- The names of the commands. -/
inductive CommandName where
  | tokens | parse | check | print
  deriving DecidableEq, Inhabited, Repr

/-- The command with a given name. -/
def CommandName.ofText? : String → Option CommandName
  | "tokens" => some tokens
  | "parse" => some parse
  | "check" => some check
  | "print" => some print
  | _ => none

/-- What has been read of the arguments after the name of a command. Each may be given once. -/
structure Arguments where
  file : Option String
  verbose : Bool
  collectErrors : Bool
  maxErrors : Option Nat

namespace Arguments

/-- Nothing yet. -/
def empty : Arguments := ⟨none, false, false, none⟩

/-- With a file. No file has an empty name. -/
def addFile (arguments : Arguments) (file : String) : Option Arguments :=
  if arguments.file.isNone && file ≠ "" then some { arguments with file := some file } else none

/-- With the option to log. -/
def addVerbose (arguments : Arguments) : Option Arguments :=
  if arguments.verbose then none else some { arguments with verbose := true }

/-- With the option to collect errors. -/
def addCollectErrors (arguments : Arguments) : Option Arguments :=
  if arguments.collectErrors then none else some { arguments with collectErrors := true }

/-- A count as it is given on a command line: digits, perhaps after a plus sign. -/
def readCount? (text : String) : Option Nat :=
  let digits := match text.toList with
    | '+' :: digits => digits
    | digits => digits
  if digits.isEmpty || digits.any fun digit => !digit.isDigit then none
  else (readUInt64? (String.ofList digits)).map UInt64.toNat

/-- With a number of errors. -/
def addMaxErrors (arguments : Arguments) (text : String) : Option Arguments :=
  match arguments.maxErrors, readCount? text with
  | none, some count => some { arguments with maxErrors := some count }
  | _, _ => none

/-- With every remaining argument as a file. -/
def addFiles (arguments : Arguments) : List String → Option Arguments
  | [] => some arguments
  | file :: rest => (arguments.addFile file).bind fun arguments => arguments.addFiles rest

/-- What stands after the equals sign of an option that is given its value so. -/
def optionValue? (option text : String) : Option String :=
  let start := (option ++ "=").toList
  if start.isPrefixOf text.toList then some (String.ofList (text.toList.drop start.length))
  else none

/-- With the remaining arguments. -/
def addAll (command : CommandName) (arguments : Arguments) : List String → Option Arguments
  | [] => some arguments
  | "--" :: files => arguments.addFiles files
  | "--max-errors" :: [] => none
  | "--max-errors" :: count :: rest =>
    if command = .parse then
      (arguments.addMaxErrors count).bind fun arguments => arguments.addAll command rest
    else none
  | option :: rest =>
    let added :=
      if option = "-v" ∨ option = "--verbose" then arguments.addVerbose
      else if option = "--collect-errors" ∧ command = .parse then arguments.addCollectErrors
      else match optionValue? "--max-errors" option with
        | some count => if command = .parse then arguments.addMaxErrors count else none
        | none =>
          if option.startsWith "-" && option ≠ "-" then none else arguments.addFile option
    added.bind fun arguments => arguments.addAll command rest

/-- What to do, once all arguments are there. -/
def action (arguments : Arguments) : CommandName → Action
  | .tokens => .tokens
  | .check => .check
  | .print => .print
  | .parse =>
    .parse <|
      if arguments.collectErrors then
        ParseOptions.collect.withMaxErrors
          (arguments.maxErrors.getD ParseOptions.usualMaxErrors)
      else .failFast

end Arguments

namespace Invocation

/-- Whether an argument asks for the version, alone or among other letters. -/
def asksForVersion (verbose : Bool) (argument : String) : Bool :=
  argument = "--version" ||
    match argument.toList with
    | '-' :: 'V' :: _ => true
    | '-' :: 'v' :: 'V' :: _ => !verbose
    | _ => false

/-- Reads the arguments, after a verbose option or none. -/
def ofArgumentsAfter (verbose : Bool) : List String → Option Invocation
  | [] => none
  | first :: rest =>
    if asksForVersion verbose first then some .version
    else if first = "-v" ∨ first = "--verbose" then
      if verbose then none else ofArgumentsAfter true rest
    else do
      let command ← CommandName.ofText? first
      let arguments ← Arguments.empty.addAll command rest
      let file ← arguments.file
      return .act (arguments.action command) file (verbose || arguments.verbose)

/-- Reads a command line; nothing is a fault in it. -/
def ofArguments (arguments : List String) : Option Invocation := ofArgumentsAfter false arguments

end Invocation

/-! ### Results -/

/-- Why a file cannot be read as text. -/
inductive FileError where
  | missing | directory | notDirectory | notText
  /-- Another fault, in the words of the system. -/
  | other (message : String)
  deriving DecidableEq, Inhabited, Repr

/-- The fault in words. -/
def FileError.message : FileError → String
  | missing => "No such file or directory (os error 2)"
  | directory => "Is a directory (os error 21)"
  | notDirectory => "Not a directory (os error 20)"
  | notText => "stream did not contain valid UTF-8"
  | other message => message

/-- The text in the bytes of a file. -/
def decodeText (bytes : ByteArray) : Except FileError String :=
  match String.fromUTF8? bytes with
  | some text => .ok text
  | none => .error .notText

/-- What a command writes, and the status with which it ends. -/
structure CommandResult where
  status : Nat
  output : String
  /-- Lines for the user alone. -/
  errors : List String
  log : List String
  deriving DecidableEq, Inhabited, Repr

namespace CommandResult

/-- A command that did what it was to do. -/
def success (output : String) (log : List String) : CommandResult := ⟨0, output, [], log⟩

/-- A command that found faults. -/
def failure (errors log : List String) : CommandResult := ⟨1, "", errors, log⟩

/-- A command line that makes no sense. -/
def misuse : CommandResult := ⟨2, "", ["error: invalid command line"], []⟩

end CommandResult

/-- The name and version of the program. -/
def versionText : String := "bmb-syntax 0.1.0\n"

/-- The heading of the report of one fault. -/
def reportHeading (diagnostic : Diagnostic) : String :=
  match diagnostic with
  | .file _ => "Error: " ++ diagnostic.text
  | _ => "Error: " ++ diagnostic.kind ++ " error"

/-- A text followed by spaces up to a width, in characters. -/
def padRight (width : Nat) (text : String) : String :=
  text ++ String.ofList (List.replicate (width - text.length) ' ')

/-- A token as one line of a listing. -/
def tokenLine (index : LineIndex) (token : Spanned Token) : String :=
  let start := (index.position token.span.start).text
  padRight 12 token.node.kind.text ++ " " ++ padRight 16 token.node.text ++ " @ " ++ start ++
    " (" ++ token.span.text ++ ")\n"

/-- Lists the tokens of a text. -/
def listTokens (source : String) : CommandResult :=
  let index := LineIndex.ofText source
  let read := readTokens source
  let log := Event.lines .debug index read.events
  match read.value with
  | .ok tokens => .success (tokens.foldl (fun text token => text ++ tokenLine index token) "") log
  | .error error => .failure [reportHeading (error.diagnostic index)] log

/-- Reads a program and writes something about it. -/
def withProgram (options : ParseOptions) (file source : String) (write : Program → String) :
    CommandResult :=
  let index := LineIndex.ofText source
  let read := collectProgram options file source
  let log := Event.lines .debug index read.events
  match read.value with
  | .error error => .failure [reportHeading (error.diagnostic index)] log
  | .ok (.error errors) =>
    let headings := errors.map fun error => reportHeading (error.diagnostic index)
    .failure (headings ++ [s!"{errors.length} syntax error(s) in {file}"]) log
  | .ok (.ok program) => .success (write program) log

namespace Action

/-- Does what is to be done with a text. -/
def run (action : Action) (file source : String) : CommandResult :=
  match action with
  | tokens => listTokens source
  | parse options => withProgram options file source fun program => program.encode.text ++ "\n"
  | check =>
    withProgram .collect file source fun program =>
      s!"✓ {file} parses successfully ({program.items.length} items)\n"
  | print => withProgram .failFast file source Program.text

end Action

namespace Invocation

/-- Does what the command line says, with the file that it names. -/
def run (content : String → Except FileError String) : Invocation → CommandResult
  | version => .success versionText []
  | act action file _ =>
    match content file with
    | .ok source => action.run file source
    | .error error => .failure [reportHeading (.file error.message)] []

end Invocation

/-- Runs the program on its arguments. -/
def runCommand (content : String → Except FileError String) (arguments : List String) :
    CommandResult :=
  match Invocation.ofArguments arguments with
  | some invocation => invocation.run content
  | none => .misuse

end ContractSyntax
