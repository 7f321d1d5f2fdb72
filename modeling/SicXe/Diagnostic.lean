/-
This file holds what can be wrong with a source statement, and how it is told.
-/

import SicXe.Directive
import SicXe.Lapse
import SicXe.Numeral.Basic

namespace SicXe

/-- A line of a source, counted from one. -/
structure Place where
  file : Text
  line : Int
  deriving DecidableEq, Repr

def Place.text (place : Place) : String :=
  s!"{String.ofList place.file}:{place.line}"

/-- A message with the place, the source line and the advice that belong to it. -/
structure Diagnostic where
  message : String
  place : Option Place := none
  hint : Option String := none
  sourceLine : Option Text := none
  deriving DecidableEq, Repr

/-- The message stands first, the source line below it, and advice last. -/
def Diagnostic.render (diagnostic : Diagnostic) : String :=
  let headline := match diagnostic.place with
    | some place => s!"{place.text}: error: {diagnostic.message}"
    | none => s!"error: {diagnostic.message}"
  let quotation := match diagnostic.sourceLine with
    | some line => s!"\n    {String.ofList line}"
    | none => ""
  let advice := match diagnostic.hint with
    | none | some "" => ""
    | some hint => s!"\nhint: {hint}"
  headline ++ quotation ++ advice

/-- What is wrong with a statement. -/
inductive Problem where
  | invalidNumber (text : Text)
  | missingCount (directive : Directive)
  | unsupportedExpression (text : Text)
  | undefinedSymbol (name sectionName : Text)
  deriving DecidableEq, Repr

namespace Problem

def message : Problem → String
  | invalidNumber text => s!"invalid number '{String.ofList text}'"
  | missingCount directive => s!"{String.ofList directive.name} requires a count"
  | unsupportedExpression text => s!"unsupported address expression '{String.ofList text}'"
  | undefinedSymbol name _ => s!"undefined symbol '{String.ofList name}'"

def hint : Problem → Option String
  | invalidNumber _ => some "numeric fields are decimal"
  | missingCount _ => none
  | unsupportedExpression _ => some "use '*', a number, a symbol, or SYMBOL-SYMBOL"
  | undefinedSymbol _ [] => none
  | undefinedSymbol name sectionName =>
    some (s!"declare '{String.ofList name}' in EXTREF if it lives in another section " ++
      s!"than '{String.ofList sectionName}'")

end Problem

/-- A problem at its place, with the line that shows it. -/
structure SourceError where
  problem : Problem
  place : Option Place := none
  sourceLine : Option Text := none
  deriving DecidableEq, Repr

def SourceError.diagnostic (error : SourceError) : Diagnostic where
  message := error.problem.message
  place := error.place
  hint := error.problem.hint
  sourceLine := error.sourceLine

/-- Why an assembly has no result. -/
inductive AssemblyError where
  | source (error : SourceError)
  | numeral (fault : Numeral.Fault)
  | lapse (lapse : Lapse)
  | stalled
  deriving DecidableEq, Repr

def AssemblyError.message : AssemblyError → String
  | source error => error.diagnostic.render
  | numeral fault => fault.message
  | lapse cause => cause.message
  | stalled => "a statement fits into no text record"

instance : MonadLift (Except Lapse) (Except AssemblyError) := ⟨Except.mapError .lapse⟩

/-- Why a line cannot be read. -/
inductive LineError where
  | problem (problem : Problem)
  | lapse (lapse : Lapse)
  deriving DecidableEq, Repr

instance : MonadLift (Except Lapse) (Except LineError) := ⟨Except.mapError .lapse⟩

/-- A problem is told with its place and the line that has it. -/
def LineError.told (place : Place) (sourceLine : Text) : LineError → AssemblyError
  | problem cause => .source ⟨cause, some place, some sourceLine⟩
  | lapse cause => .lapse cause

end SicXe
