/-
This file says what the options of the command mean: which files it reads and writes, which
arguments give the options, and that checking them leaves the file system as it was.
-/

import SicXe.Command.Run
import SicXe.Proofs.Files.Lawful

namespace SicXe.Command

namespace Options

/-- The paths that are given for options. -/
def values (options : Options) : List Text :=
  options.catalog.toList ++ options.output.toList ++ options.symbols.toList

/-- No path that is given has a null character. -/
def IsWellFormed (options : Options) : Prop :=
  ∀ path ∈ options.input :: options.values, Path.isWellFormed path = true

instance (options : Options) : Decidable options.IsWellFormed :=
  inferInstanceAs (Decidable (∀ path ∈ options.input :: options.values, _))

def sourcePath (options : Options) : Text :=
  Path.normal options.input

/-- The catalog is the one that is named, or the standard one. -/
def catalogPath (σ : Type) [Files (StateM σ)] (options : Options) : Text :=
  match options.catalog with
  | some path => Path.normal path
  | none => Files.standardCatalog (StateM σ)

/-- An output goes to the file that is named, or beside the program. -/
def outputPath (options : Options) (extension : String) : Option Text → Text
  | some path => Path.normal path
  | none => Path.withExtension options.sourcePath extension.toList

def objectPath (options : Options) : Text :=
  options.outputPath ".obj" options.output

def symbolPath (options : Options) : Text :=
  options.outputPath ".sym" options.symbols

/-- The options decide what the command is asked to do. -/
theorem requestOf (options : Options) : Request.ofOptions options =
    { input := options.sourcePath
      catalog := options.catalog.map Path.normal
      output := options.objectPath
      symbols := options.symbolPath
      strict := options.strict
      verbose := options.verbose } := by
  obtain ⟨input, catalog, output, symbols, strict, verbose⟩ := options
  cases output <;> cases symbols <;> rfl

section Paths

variable {options : Options}

theorem properSource (formed : options.IsWellFormed) : Path.IsProper options.sourcePath :=
  Path.properNormal (formed _ List.mem_cons_self)

theorem properCatalog {σ : Type} [Files (StateM σ)] [LawfulFiles σ]
    (formed : options.IsWellFormed) : Path.IsProper (options.catalogPath σ) := by
  unfold catalogPath
  cases given : options.catalog with
  | none => exact LawfulFiles.standard
  | some path => exact Path.properNormal (formed path (by simp [values, given]))

theorem properOutput (formed : options.IsWellFormed) {given : Option Text}
    (listed : ∀ path ∈ given, path ∈ options.values) {extension : String}
    (formedExtension : Path.isWellFormed extension.toList = true)
    (undivided : '/' ∉ extension.toList) (long : 2 ≤ extension.toList.length) :
    Path.IsProper (options.outputPath extension given) := by
  cases given with
  | none =>
    have source := formed options.input List.mem_cons_self
    exact Path.properWithExtension source formedExtension undivided long
  | some path => exact Path.properNormal (formed path (List.mem_cons_of_mem _ (listed path rfl)))

theorem properObject (formed : options.IsWellFormed) : Path.IsProper options.objectPath :=
  properOutput formed (fun path given => by simp [values, Option.mem_def.1 given]) (by decide)
    (by decide) (by decide)

theorem properSymbols (formed : options.IsWellFormed) : Path.IsProper options.symbolPath :=
  properOutput formed (fun path given => by simp [values, Option.mem_def.1 given]) (by decide)
    (by decide) (by decide)

end Paths

/-- An option and its value as arguments. -/
def writtenValue (name : Text) : Option Text → List Text
  | none => []
  | some value => [name, value]

def writtenFlag (name : Text) : Bool → List Text
  | false => []
  | true => [name]

/-- The options as arguments of the command. -/
def written (options : Options) : List Text :=
  writtenValue "-c".toList options.catalog ++ (writtenValue "-o".toList options.output ++
    (writtenValue "-s".toList options.symbols ++ (writtenFlag "--strict".toList options.strict ++
      (writtenFlag "-v".toList options.verbose ++ ["--".toList, options.input]))))

/-- The options in the order in which they are written. -/
def settings (options : Options) : List (Parameter × Text) :=
  (options.catalog.map (Parameter.catalog, ·)).toList ++
    ((options.output.map (Parameter.output, ·)).toList ++
      ((options.symbols.map (Parameter.symbols, ·)).toList ++
        ((if options.strict then [(Parameter.strict, [])] else []) ++
          if options.verbose then [(Parameter.verbose, [])] else [])))

theorem readWrittenValue (name : Text) {parameter : Parameter} {rest : List Text}
    {parsed : Arguments} (unlike : name ≠ ['-', '-']) (marked : isOption name = true)
    (known : readOption name = .ok { awaiting := some ⟨parameter, name⟩ })
    (readRest : readFrom none rest = .ok parsed) (value : Option Text) :
    readFrom none (writtenValue name value ++ rest) =
      .ok ⟨(value.map (parameter, ·)).toList ++ parsed.options, parsed.others⟩ := by
  cases value with
  | none => exact readRest
  | some value =>
    change readFrom none (name :: value :: rest) = _
    rw [readFrom, if_neg unlike, if_pos marked, known]
    simp only [readFrom, readRest]
    rfl

theorem readWrittenFlag (name : Text) {parameter : Parameter} {rest : List Text}
    {parsed : Arguments} (unlike : name ≠ ['-', '-']) (marked : isOption name = true)
    (known : readOption name = .ok { settled := [(parameter, [])] })
    (readRest : readFrom none rest = .ok parsed) (given : Bool) :
    readFrom none (writtenFlag name given ++ rest) =
      .ok ⟨(if given then [(parameter, [])] else []) ++ parsed.options, parsed.others⟩ := by
  cases given with
  | false => exact readRest
  | true =>
    change readFrom none (name :: rest) = _
    rw [readFrom, if_neg unlike, if_pos marked, known]
    simp only [readRest]
    rfl

/-- The arguments are read as the options in their order, and as the program. -/
theorem readWritten (options : Options) :
    Arguments.read options.written = .ok ⟨options.settings, [options.input]⟩ := by
  have ending : readFrom none ["--".toList, options.input] = .ok ⟨[], [options.input]⟩ := rfl
  have verbose := readWrittenFlag "-v".toList (by decide) rfl rfl ending options.verbose
  simp only [List.append_nil] at verbose
  have strict := readWrittenFlag "--strict".toList (by decide) rfl rfl verbose options.strict
  have symbols := readWrittenValue "-s".toList (by decide) rfl rfl strict options.symbols
  have output := readWrittenValue "-o".toList (by decide) rfl rfl symbols options.output
  exact readWrittenValue "-c".toList (by decide) rfl rfl output options.catalog

example : written { input := "a.asm".toList, output := some "b".toList, strict := true } =
    ["-o", "b", "--strict", "--", "a.asm"].map String.toList :=
  rfl

/-- The options are found again among their arguments. -/
theorem ofArgumentsSettings (options : Options) (others : List Text) :
    ofArguments ⟨options.settings, others⟩ options.input = options := by
  obtain ⟨input, _ | catalog, _ | output, _ | symbols, _ | _, _ | _⟩ := options <;> rfl

theorem answerSettings (options : Options) (others : List Text) :
    Arguments.answer? ⟨options.settings, others⟩ = none := by
  obtain ⟨input, _ | catalog, _ | output, _ | symbols, _ | _, _ | _⟩ := options <;> rfl

theorem memValues {arguments : Arguments} {input path : Text} :
    path ∈ (ofArguments arguments input).values ↔
      ∃ parameter, parameter.takesValue = true ∧ arguments.value? parameter = some path := by
  simp only [values, ofArguments, List.mem_append, Option.mem_toList]
  constructor
  · rintro ((catalog | output) | symbols)
    · exact ⟨.catalog, rfl, catalog⟩
    · exact ⟨.output, rfl, output⟩
    · exact ⟨.symbols, rfl, symbols⟩
  · rintro ⟨parameter, takes, isValue⟩
    cases parameter with
    | catalog => exact .inl (.inl isValue)
    | output => exact .inl (.inr isValue)
    | symbols => exact .inr isValue
    | strict | verbose | version | help => contradiction

/-- The program is there, and no directory is taken for a file. -/
structure Accepted {σ : Type} [Files (StateM σ)] (options : Options) (store : σ) : Prop where
  formed : options.IsWellFormed
  source : (Files.look store options.input).1 = .file
  values : ∀ path ∈ options.values, (Files.look store path).1 ≠ .directory

end Options

theorem givenOfValue {arguments : Arguments} {parameter : Parameter} {value : Text}
    (isValue : arguments.value? parameter = some value) : parameter ∈ arguments.given := by
  obtain ⟨option, last, _⟩ := Option.map_eq_some_iff.1 isValue
  obtain ⟨listed, same⟩ := List.mem_filter.1 (List.mem_of_getLast? last)
  rw [Arguments.given, List.mem_eraseDups]
  exact List.mem_map.2 ⟨option, listed, of_decide_eq_true same⟩

section Checks

variable {σ : Type} [Files (StateM σ)]

theorem acceptedIff {store : σ} {arguments : Arguments} {input : Text} :
    (Options.ofArguments arguments input).Accepted store ↔
      (∀ parameter ∈ arguments.given, parameter.takesValue = true →
        ∀ path ∈ arguments.value? parameter,
          Path.isWellFormed path = true ∧ (Files.look store path).1 ≠ .directory) ∧
      Path.isWellFormed input = true ∧ (Files.look store input).1 = .file := by
  constructor
  · rintro ⟨formed, source, values⟩
    refine ⟨fun parameter _ takes path isValue => ?_, formed _ List.mem_cons_self, source⟩
    have listed : path ∈ (Options.ofArguments arguments input).values :=
      Options.memValues.2 ⟨parameter, takes, isValue⟩
    exact ⟨formed path (List.mem_cons_of_mem _ listed), values path listed⟩
  · rintro ⟨passed, formedInput, source⟩
    have checked : ∀ path ∈ (Options.ofArguments arguments input).values,
        Path.isWellFormed path = true ∧ (Files.look store path).1 ≠ .directory := by
      intro path listed
      obtain ⟨parameter, takes, isValue⟩ := Options.memValues.1 listed
      exact passed parameter (givenOfValue isValue) takes path isValue
    exact ⟨List.forall_mem_cons.2 ⟨formedInput, fun path listed => (checked path listed).1⟩, source,
      fun path listed => (checked path listed).2⟩

variable [LawfulFiles σ]

theorem runStatusOf (store : σ) (path : Text) :
    (statusOf path : StateM σ (Except Refusal FileStatus)).run store =
      (if Path.isWellFormed path then .ok (Files.look store path).1 else .error .malformedPath,
        store) := by
  unfold statusOf
  split
  · change (Except.ok (Files.look store path).1, (Files.look store path).2) = _
    rw [LawfulFiles.look]
  · rfl

/-- The values pass the check if they are paths of which none leads to a directory. -/
theorem checkValuesIff (store : σ) (arguments : Arguments) (parameters : List Parameter) :
    ∃ result, (checkValues arguments parameters : StateM σ (Except Refusal Unit)).run store =
        (result, store) ∧
      (result = .ok () ↔ ∀ parameter ∈ parameters, parameter.takesValue = true →
        ∀ path ∈ arguments.value? parameter,
          Path.isWellFormed path = true ∧ (Files.look store path).1 ≠ .directory) := by
  induction parameters with
  | nil => exact ⟨.ok (), rfl, by simp⟩
  | cons parameter rest inductionHypothesis =>
    obtain ⟨later, checkRest, passed⟩ := inductionHypothesis
    simp only [List.forall_mem_cons]
    unfold checkValues
    split
    · next path takes given =>
      rw [StateT.run_bind, runStatusOf]
      simp only [takes, given, Option.mem_some_iff, forall_eq', forall_const]
      cases formed : Path.isWellFormed path with
      | false => exact ⟨_, rfl, by simp⟩
      | true =>
        cases status : (Files.look store path).1 with
        | directory => exact ⟨_, rfl, by simp⟩
        | absent | file => exact ⟨later, checkRest, by simpa using passed⟩
    · next valueless =>
      refine ⟨later, checkRest, passed.trans (iff_and_self.2 fun _ takes path isValue => ?_)⟩
      exact absurd isValue (valueless path takes)

/-- One argument passes the check if it leads to a file. -/
theorem checkInputIff (store : σ) (others : List Text) :
    ∃ result, (checkInput others : StateM σ (Except Refusal Text)).run store = (result, store) ∧
      ∀ input, result = .ok input ↔ others = [input] ∧ Path.isWellFormed input = true ∧
        (Files.look store input).1 = .file := by
  cases others with
  | nil => exact ⟨_, rfl, by simp⟩
  | cons first extra =>
    unfold checkInput
    rw [StateT.run_bind, runStatusOf]
    cases formed : Path.isWellFormed first with
    | false => exact ⟨_, rfl, by simp [formed]⟩
    | true =>
      cases status : (Files.look store first).1 with
      | directory | absent => exact ⟨_, rfl, by simp [status]⟩
      | file =>
        refine ⟨_, rfl, fun input => ?_⟩
        by_cases alone : extra = []
        · rw [if_pos alone, alone]
          constructor
          · intro same
            rw [← Except.ok.inj same]
            exact ⟨rfl, formed, status⟩
          · rintro ⟨same, _⟩
            rw [(List.cons.inj same).1]
        · simp [alone]

/-- The arguments are accepted as the options that they give if these pass all checks, which change
nothing. -/
theorem acceptIff (store : σ) (arguments : Arguments) :
    ∃ result, (accept arguments : StateM σ (Except Refusal Options)).run store =
        (result, store) ∧
      ∀ options, result = .ok options ↔ arguments.others = [options.input] ∧
        Options.ofArguments arguments options.input = options ∧ options.Accepted store := by
  obtain ⟨checkedValues, checkValues, values⟩ := checkValuesIff store arguments arguments.given
  obtain ⟨checkedInput, checkInput, inputs⟩ := checkInputIff store arguments.others
  unfold accept
  rw [StateT.run_bind, checkValues]
  cases checkedValues with
  | error refusal =>
    refine ⟨_, rfl, fun options => iff_of_false (by simp) ?_⟩
    rintro ⟨_, same, accepted⟩
    rw [← same] at accepted
    have passed := values.2 (acceptedIff.1 accepted).1
    contradiction
  | ok =>
    change ∃ result, StateT.run (Command.checkInput arguments.others >>= _) store = _ ∧ _
    rw [StateT.run_bind, checkInput]
    cases checkedInput with
    | error refusal =>
      refine ⟨_, rfl, fun options => iff_of_false (by simp) ?_⟩
      rintro ⟨single, same, accepted⟩
      rw [← same] at accepted
      have passed := (inputs options.input).2 ⟨single, (acceptedIff.1 accepted).2⟩
      contradiction
    | ok input =>
      obtain ⟨single, inputPasses⟩ := (inputs input).1 rfl
      refine ⟨_, rfl, fun options => ⟨fun same => ?_, ?_⟩⟩
      · rw [← Except.ok.inj same]
        exact ⟨single, rfl, acceptedIff.2 ⟨values.1 rfl, inputPasses⟩⟩
      · rintro ⟨alsoSingle, same, _⟩
        rw [← same, (List.cons.inj (single.symm.trans alsoSingle)).1]

/-- Arguments that are accepted make the command do what their options ask for. -/
theorem runAccepted {arguments : List Text} {parsed : Arguments} {options : Options} {store : σ}
    (read : Arguments.read arguments = .ok parsed) (plain : parsed.answer? = none)
    (single : parsed.others = [options.input])
    (same : Options.ofArguments parsed options.input = options)
    (accepted : options.Accepted store) :
    (run arguments : StateM σ (Except Failure Outcome)).run store =
      let done := (execute options : StateM σ Outcome).run store
      (.ok done.1, done.2) := by
  obtain ⟨result, checked, passes⟩ := acceptIff store parsed
  obtain rfl := (passes options).2 ⟨single, same, accepted⟩
  unfold run
  rw [read]
  dsimp only
  rw [plain]
  dsimp only
  rw [StateT.run_bind, checked]
  rfl

/-- The options may be handed to the command as arguments. -/
theorem runWritten {options : Options} {store : σ} (accepted : options.Accepted store) :
    (run options.written : StateM σ (Except Failure Outcome)).run store =
      let done := (execute options : StateM σ Outcome).run store
      (.ok done.1, done.2) :=
  runAccepted options.readWritten (options.answerSettings _) rfl (options.ofArgumentsSettings _)
    accepted

end Checks

end SicXe.Command
