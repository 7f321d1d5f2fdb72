/-
This file holds the events that an assembly reports while it runs.
-/

import SicXe.Diagnostic
import SicXe.Numeral.Hex

namespace SicXe

/-- Details for tracing, warnings, and notes for the person at the console. -/
inductive Channel where
  | debug
  | warning
  | console
  deriving DecidableEq, Repr

inductive Event where
  | instructionReplaced (line : Nat) (mnemonic : Text)
  | catalogLoaded (count : Nat)
  | symbolKept (name : Text) (value : Int)
  | patchAdded (symbol : Text) (location width : Int)
  | sectionOpened (index : Nat) (name : Text) (start : Int)
  | duplicateLabel (place : Place) (label : Text)
  | literalPlaced (name : Text) (address : Int)
  | undefinedSymbol (place : Place) (name sectionName : Text)
  | sectionEmitted (name : Text) (records : Nat)
  | assembled (sections records : Nat)
  | sourceRead (path : Text)
  | symbolsWritten (path : Text)
  | objectWritten (path : Text)
  | consoleCatalog (count : Nat) (path : Text)
  | consoleSource (path : Text)
  | consoleLayout (statements sections : Nat)
  | consoleSymbols (path : Text)
  | consoleObject (path : Text)
  | consoleTotals (sections records : Nat)
  | consoleLabels (count : Nat)
  deriving DecidableEq, Repr

namespace Event

def channel : Event → Channel
  | duplicateLabel .. | undefinedSymbol .. => .warning
  | consoleCatalog .. | consoleSource .. | consoleLayout .. | consoleSymbols ..
  | consoleObject .. | consoleTotals .. | consoleLabels .. => .console
  | _ => .debug

/-- An address with at least six digits. -/
def address (value : Int) : String :=
  "$" ++ String.ofList (Numeral.Hex.padded 6 value)

def text : Event → String
  | instructionReplaced line mnemonic =>
    s!"Catalog line {line}: '{String.ofList mnemonic}' overrides earlier entry"
  | catalogLoaded count => s!"Loaded {count} instructions into catalog"
  | symbolKept name value =>
    s!"Symbol '{String.ofList name}' already defined, keeping " ++
      "$" ++ String.ofList (Numeral.Hex.ofInt value)
  | patchAdded symbol location width =>
    s!"Modification {String.ofList symbol} at {address location} width {width}"
  | sectionOpened index name start =>
    s!"Opened section {index} '{String.ofList name}' at {address start}"
  | duplicateLabel place label =>
    s!"{place.text}: duplicate label '{String.ofList label}' ignored"
  | literalPlaced name location => s!"Literal {String.ofList name} placed at {address location}"
  | undefinedSymbol place name sectionName =>
    s!"{place.text}: undefined symbol '{String.ofList name}' in section " ++
      s!"'{String.ofList sectionName}'"
  | sectionEmitted name records => s!"Section '{String.ofList name}': {records} records"
  | assembled sections records => s!"Assembled {sections} sections, {records} records"
  | sourceRead path => s!"Assembling {String.ofList path}"
  | symbolsWritten path | consoleSymbols path => s!"Wrote symbols to {String.ofList path}"
  | objectWritten path | consoleObject path => s!"Wrote object program to {String.ofList path}"
  | consoleCatalog count path => s!"Loaded {count} instructions from {String.ofList path}"
  | consoleSource path => s!"Assembling {String.ofList path}..."
  | consoleLayout statements sections =>
    s!"Pass 1: {statements} statements in {sections} sections"
  | consoleTotals sections records =>
    s!"Assembly complete: {sections} sections, {records} records"
  | consoleLabels count => s!"Defined {count} symbols"

/-- A log line names the level before the text; a note for the console has none. -/
def logLine (event : Event) : String :=
  match event.channel with
  | .warning => s!"WARNING: {event.text}"
  | .debug => s!"DEBUG: {event.text}"
  | .console => event.text

/-- The log lines of the events, with details if they are asked for. -/
def log (details : Bool) (events : List Event) : List String :=
  (events.filter fun event =>
    event.channel = .warning || (details && event.channel = .debug)).map logLine

/-- The notes for the console. -/
def notes (events : List Event) : List String :=
  (events.filter (·.channel = .console)).map text

/-- What the console shows, one line a note. -/
def console (events : List Event) : String :=
  String.join ((notes events).map (· ++ "\n"))

end Event

end SicXe
