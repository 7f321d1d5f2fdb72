/-
This file runs the command: it assembles one file and writes its symbols and its object program.
-/

import SicXe.Command.Arguments
import SicXe.Session

namespace SicXe.Command

variable {m : Type → Type} [Monad m] [Files m]

/-- The values that are given for the argument and for the options of the command. -/
structure Options where
  input : Text
  catalog : Option Text := none
  output : Option Text := none
  symbols : Option Text := none
  strict : Bool := false
  verbose : Bool := false
  deriving DecidableEq, Repr

/-- What the command is asked to do. -/
structure Request where
  input : Text
  catalog : Option Text := none
  output : Text
  symbols : Text
  strict : Bool := false
  verbose : Bool := false
  deriving DecidableEq, Repr

/-- What a run leaves behind, besides its files. -/
structure Outcome where
  exitCode : Nat := 0
  standardOutput : String := ""
  standardError : String := ""
  traced : Bool := false
  deriving DecidableEq, Repr

/-- Why the arguments are not accepted: they are wrong, or the file system cannot even be asked
about one of them. -/
inductive Refusal where
  | arguments (error : ArgumentError)
  | malformedPath
  deriving DecidableEq, Repr

/-- What stands at the path that an argument gives. -/
def statusOf (path : Text) : m (Except Refusal FileStatus) := do
  if Path.isWellFormed path then return .ok (← Files.status path)
  else return .error .malformedPath

/-- The value of an option may not be a directory. -/
def checkValues (arguments : Arguments) : List Parameter → m (Except Refusal Unit)
  | [] => return .ok ()
  | parameter :: rest =>
    match parameter.takesValue, arguments.value? parameter with
    | true, some path => do
      match ← statusOf path with
      | .error refusal => return .error refusal
      | .ok .directory => return .error (.arguments (.directoryValue parameter path))
      | .ok _ => checkValues arguments rest
    | _, _ => checkValues arguments rest

/-- The first argument that is no option names the program, and there is no other. -/
def checkInput : List Text → m (Except Refusal Text)
  | [] => return .error (.arguments .missingInput)
  | input :: extra => do
    match ← statusOf input with
    | .error refusal => return .error refusal
    | .ok .absent => return .error (.arguments (.absentInput input))
    | .ok .directory => return .error (.arguments (.directoryInput input))
    | .ok .file =>
      return if extra = [] then .ok input else .error (.arguments (.extraArguments extra))

def Options.ofArguments (arguments : Arguments) (input : Text) : Options where
  input
  catalog := arguments.value? .catalog
  output := arguments.value? .output
  symbols := arguments.value? .symbols
  strict := arguments.has .strict
  verbose := arguments.has .verbose

def accept (arguments : Arguments) : m (Except Refusal Options) := do
  match ← checkValues arguments arguments.given with
  | .error refusal => return .error refusal
  | .ok () =>
    match ← checkInput arguments.others with
    | .error refusal => return .error refusal
    | .ok input => return .ok (Options.ofArguments arguments input)

/-- The output files lie beside the program unless they are named. -/
def Request.ofOptions (options : Options) : Request where
  input := Path.normal options.input
  catalog := options.catalog.map Path.normal
  output := (options.output.map Path.normal).getD
    (Path.withExtension (Path.normal options.input) ".obj".toList)
  symbols := (options.symbols.map Path.normal).getD
    (Path.withExtension (Path.normal options.input) ".sym".toList)
  strict := options.strict
  verbose := options.verbose

def loadCatalog (request : Request) : Task m Catalog :=
  match request.catalog with
  | none => Catalog.loadStandard
  | some path => do
    let catalog ← Catalog.ofFile path
    Task.reportIf request.verbose (.consoleCatalog catalog.size path)
    return catalog

/-- The symbols are written before the object program. -/
def perform (request : Request) : Task m Unit := do
  let catalog ← loadCatalog request
  Task.reportIf request.verbose (.consoleSource request.input)
  let assembly ← Assembly.ofFile { catalog, strict := request.strict } request.input
  let _ ← assembly.saveSymbols request.symbols
  Task.reportIf request.verbose (.consoleSymbols request.symbols)
  let _ ← assembly.saveObject request.output
  Task.reportIf request.verbose (.consoleObject request.output)
  Task.reportIf request.verbose
    (.consoleTotals assembly.sections.length assembly.records.length)
  Task.reportIf request.verbose (.consoleLabels (assembly.tables.flatMap (·.entries)).length)

/-- The log as the person at the console sees it. -/
def logText (verbose : Bool) (events : List Event) : String :=
  let shown := if verbose then Event.log true events
    else (events.filter (·.channel = .warning)).map Event.text
  String.join (shown.map (· ++ "\n"))

/-- A failure is told behind the log; an internal one is traced if details are asked for. -/
def Outcome.ofLogged (verbose : Bool) (outcome : Logged Failure Unit) : Outcome :=
  let log := logText verbose outcome.events
  let standardOutput := String.join ((Event.notes outcome.events).map Text.plainLine)
  match outcome.result with
  | .ok () => { standardOutput, standardError := log }
  | .error failure =>
    let complaint := failure.complaint
    { exitCode := complaint.exitCode
      standardOutput
      standardError := log ++ complaint.report (some "Assembly")
      traced := verbose && complaint.exitCode == 3 }

/-- The command proper, once its options are known. -/
def execute (options : Options) : m Outcome := do
  return .ofLogged options.verbose (← (perform (.ofOptions options)).run)

def Outcome.ofArgumentError (error : ArgumentError) : Outcome :=
  { exitCode := 2, standardError := error.report }

/-- Wrong arguments are told; a malformed path ends the command without an outcome. -/
def Refusal.outcome : Refusal → Except Failure Outcome
  | arguments error => .ok (.ofArgumentError error)
  | malformedPath => .error .malformedPath

def run (arguments : List Text) : m (Except Failure Outcome) :=
  match Arguments.read arguments with
  | .error error => return .ok (.ofArgumentError error)
  | .ok arguments =>
    match arguments.answer? with
    | some standardOutput => return .ok { standardOutput }
    | none => do
      match ← accept arguments with
      | .error refusal => return refusal.outcome
      | .ok options => return .ok (← execute options)

end SicXe.Command
