/-
This file reads the arguments of the command.
-/

import SicXe.Text.ControlSequence
import SicXe.Text.Quoted

namespace SicXe.Command

/-- The options of the command. -/
inductive Parameter where
  | catalog
  | output
  | symbols
  | strict
  | verbose
  | version
  | help
  deriving DecidableEq, Repr

namespace Parameter

def all : List Parameter := [catalog, output, symbols, strict, verbose, version, help]

def long : Parameter → Text
  | catalog => "--catalog".toList
  | output => "--output".toList
  | symbols => "--symbols".toList
  | strict => "--strict".toList
  | verbose => "--verbose".toList
  | version => "--version".toList
  | help => "--help".toList

def short? : Parameter → Option Char
  | catalog => some 'c'
  | output => some 'o'
  | symbols => some 's'
  | verbose => some 'v'
  | strict | version | help => none

def takesValue : Parameter → Bool
  | catalog | output | symbols => true
  | strict | verbose | version | help => false

def ofLong? (name : Text) : Option Parameter :=
  all.find? (·.long == name)

def ofShort? (letter : Char) : Option Parameter :=
  all.find? (·.short? == some letter)

/-- The parameter with its two names, as errors show it. -/
def label (parameter : Parameter) : String :=
  match parameter.short? with
  | some letter => s!"'-{letter}' / '{String.ofList parameter.long}'"
  | none => s!"'{String.ofList parameter.long}'"

end Parameter

def usageLine : String := "Usage: sicasm [OPTIONS] INPUT_FILE\n"

def versionText : String := "sicasm, version 1.0.0\n"

def helpText : String :=
  usageLine ++ String.join
    (["",
      "  Assemble SIC/XE source code.",
      "",
      "  INPUT_FILE is the assembly source: one statement per line, with label,",
      "  operator, operands and comment separated by tabs.",
      "",
      "  Examples:",
      "      sicasm copy.asm                  # Outputs copy.obj and copy.sym",
      "      sicasm copy.asm -o out.obj       # Specify object file",
      "      sicasm -c inst.data copy.asm     # Use another catalog",
      "",
      "Options:",
      "  -c, --catalog FILE  Instruction catalog file (default: bundled SIC/XE table)",
      "  -o, --output FILE   Output object module (default: input.obj)",
      "  -s, --symbols FILE  Output symbol table (default: input.sym)",
      "  --strict            Treat undefined symbols as errors",
      "  -v, --verbose       Verbose output",
      "  --version           Show the version and exit.",
      "  --help              Show this message and exit."].map (· ++ "\n"))

/-- The text that an option asks for; nothing else is done then. -/
def Parameter.answer? : Parameter → Option String
  | version => some versionText
  | help => some helpText
  | catalog | output | symbols | strict | verbose => none

/-- What can be wrong with the arguments. -/
inductive ArgumentError where
  | missingValue (option : Text)
  | unexpectedValue (option : Text)
  | unknownOption (option : Text)
  | missingInput
  | extraArguments (arguments : List Text)
  | absentInput (path : Text)
  | directoryInput (path : Text)
  | directoryValue (parameter : Parameter) (path : Text)
  deriving DecidableEq, Repr

namespace ArgumentError

def message : ArgumentError → String
  | missingValue option => s!"Option '{String.ofList option}' requires an argument."
  | unexpectedValue option => s!"Option '{String.ofList option}' does not take a value."
  | unknownOption option => s!"No such option: {String.ofList option}"
  | missingInput => "Missing argument 'INPUT_FILE'."
  | extraArguments [argument] => s!"Got unexpected extra argument ({String.ofList argument})"
  | extraArguments arguments =>
    let shown := String.ofList (Text.join ' ' arguments)
    s!"Got unexpected extra arguments ({shown})"
  | absentInput path =>
    s!"Invalid value for 'INPUT_FILE': File {String.ofList (Text.quoted path)} does not exist."
  | directoryInput path =>
    s!"Invalid value for 'INPUT_FILE': File {String.ofList (Text.quoted path)} is a directory."
  | directoryValue parameter path =>
    s!"Invalid value for {parameter.label}: " ++
      s!"File {String.ofList (Text.quoted path)} is a directory."

/-- How the command is called, above most errors. -/
def usage : String :=
  usageLine ++ "Try 'sicasm --help' for help.\n\n"

/-- Errors in the value of an option are told without the usage. -/
def report (error : ArgumentError) : String :=
  match error with
  | missingValue _ | unexpectedValue _ => Text.plainLine s!"Error: {error.message}"
  | _ => usage ++ Text.plainLine s!"Error: {error.message}"

end ArgumentError

/-- The options in the order in which they are given, each with its value, and the other
arguments. -/
structure Arguments where
  options : List (Parameter × Text) := []
  others : List Text := []
  deriving DecidableEq, Repr

/-- An option whose value is the next argument, and how it is written. -/
structure Awaiting where
  parameter : Parameter
  written : Text
  deriving DecidableEq, Repr

/-- The options that one argument gives, and the one among them that still lacks its value. -/
structure Group where
  settled : List (Parameter × Text) := []
  awaiting : Option Awaiting := none
  deriving DecidableEq, Repr

/-- Letters of flags may stand together, and the rest behind a letter may be its value. -/
def readLetters : Text → Except ArgumentError Group
  | [] => .ok {}
  | letter :: rest =>
    match Parameter.ofShort? letter with
    | none => .error (.unknownOption ['-', letter])
    | some parameter =>
      if parameter.takesValue then
        if rest = [] then .ok { awaiting := some ⟨parameter, ['-', letter]⟩ }
        else .ok { settled := [(parameter, rest)] }
      else (readLetters rest).map fun group =>
        { group with settled := (parameter, []) :: group.settled }

/-- The value of an option with a long name follows an equals sign or in the next argument. -/
def readOption (argument : Text) : Except ArgumentError Group :=
  let (name, value) := match Text.cut? '=' argument with
    | some (name, value) => (name, some value)
    | none => (argument, none)
  match Parameter.ofLong? name with
  | some parameter =>
    match parameter.takesValue, value with
    | true, some value => .ok { settled := [(parameter, value)] }
    | true, none => .ok { awaiting := some ⟨parameter, name⟩ }
    | false, some _ => .error (.unexpectedValue name)
    | false, none => .ok { settled := [(parameter, [])] }
  | none =>
    match argument with
    | '-' :: '-' :: _ => .error (.unknownOption name)
    | _ => readLetters argument.tail

def isOption : Text → Bool
  | '-' :: _ :: _ => true
  | _ => false

/-- Two dashes alone end the options. -/
def readFrom : Option Awaiting → List Text → Except ArgumentError Arguments
  | none, [] => .ok {}
  | some awaiting, [] => .error (.missingValue awaiting.written)
  | some awaiting, value :: rest =>
    (readFrom none rest).map fun arguments =>
      { arguments with options := (awaiting.parameter, value) :: arguments.options }
  | none, argument :: rest =>
    if argument = ['-', '-'] then .ok { others := rest }
    else if isOption argument then
      match readOption argument with
      | .error error => .error error
      | .ok group => (readFrom group.awaiting rest).map fun arguments =>
          { arguments with options := group.settled ++ arguments.options }
    else (readFrom none rest).map fun arguments =>
      { arguments with others := argument :: arguments.others }

namespace Arguments

def read (arguments : List Text) : Except ArgumentError Arguments :=
  readFrom none arguments

def has (arguments : Arguments) (parameter : Parameter) : Bool :=
  arguments.options.any (·.1 = parameter)

/-- The last value of an option counts. -/
def value? (arguments : Arguments) (parameter : Parameter) : Option Text :=
  (arguments.options.filter (·.1 = parameter)).getLast?.map Prod.snd

/-- The options that are given, in the order in which each comes first. -/
def given (arguments : Arguments) : List Parameter :=
  (arguments.options.map Prod.fst).eraseDups

/-- Of several options that ask for a text, the first one is answered. -/
def answer? (arguments : Arguments) : Option String :=
  arguments.given.findSome? Parameter.answer?

end Arguments

end SicXe.Command
