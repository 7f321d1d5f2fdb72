/-
This file says what a run of the command does to the files. The output files are written if the
program is assembled, and whatever fails before that changes no file.
-/

import SicXe.Proofs.Assembly.Failures
import SicXe.Proofs.Catalog.Files
import SicXe.Proofs.Command.Options

namespace SicXe

variable {σ : Type}

namespace Failure

/-- The exit code for what is wrong with the program, its catalog and their files: two if a file
cannot be read, one for an error in the catalog or in the program, and three for a file that is not
in UTF-8. -/
def inputCode? : Failure → Option Nat
  | unreadable _ _ => some 2
  | catalog _ | assembly (.source _) => some 1
  | undecodable _ => some 3
  | _ => none

/-- The failure is told by its exit code, unless the assembler never stops. -/
def IsTold (failure : Failure) : Prop :=
  failure = assembly .stalled ∨ failure.inputCode? = some failure.complaint.exitCode

end Failure

namespace Command

variable [Files (StateM σ)]

/-- The catalog that the options name, or the standard one. -/
def Options.catalogIn (options : Options) (store : σ) : Except Failure Catalog :=
  Catalog.inFile store (options.catalogPath σ)

/-- The program that the options name, assembled with a catalog. -/
def Options.programIn (options : Options) (store : σ) (catalog : Catalog) :
    Except Failure Assembly := do
  let source ← Files.textAt store options.sourcePath
  (Assembly.ofText { catalog, strict := options.strict } options.sourcePath source).result.mapError
    Failure.assembly

/-- The program that the options name, assembled with the catalog that they name. -/
def Options.assemblyIn (options : Options) (store : σ) : Except Failure Assembly := do
  let catalog ← options.catalogIn store
  options.programIn store catalog

theorem failsTextAt (store : σ) (path : Text) :
    FailsBy Failure.IsTold (Files.textAt store path) := by
  unfold Files.textAt
  split
  · exact .error (.inr rfl)
  · split
    · exact .error (.inr rfl)
    · exact .ok _

/-- What fails before the first write has its exit code. -/
theorem failsAssemblyIn (options : Options) (store : σ) :
    FailsBy Failure.IsTold (options.assemblyIn store) := by
  have loads : FailsBy Failure.IsTold (options.catalogIn store) :=
    (failsTextAt store _).bind fun text _ => FailsBy.mapError fun fault _ => .inr rfl
  refine loads.bind fun catalog _ => (failsTextAt store options.sourcePath).bind fun source _ =>
    FailsBy.mapError ?_
  refine (Assembly.failsOfLines _ _ _).mono ?_
  rintro error (⟨line, _, problem, sourceLine, rfl, _⟩ | ⟨rfl, _⟩)
  · exact .inr rfl
  · exact .inl rfl

/-- The exit code that tells how the command ends. -/
def exitCodeOf : Except Failure Unit → Nat
  | .ok () => 0
  | .error failure => failure.complaint.exitCode

theorem exitCodeEqZero {result : Except Failure Unit} :
    exitCodeOf result = 0 ↔ result = .ok () := by
  cases result with
  | ok => simp [exitCodeOf]
  | error failure =>
    have positive (complaint : Complaint) : complaint.exitCode ≠ 0 := by
      cases complaint <;> simp [Complaint.exitCode]
    exact iff_of_false (positive failure.complaint) nofun

/-- A text is written and told about. -/
theorem appliedSave (text : Text) (event : Event) {path : Text} (proper : Path.IsProper path)
    (store : σ) :
    (do
      Task.writeText (Path.normal path) text
      Task.report event
      return text : Task (StateM σ) Text).applied store =
      match Files.save store path (Text.encodeUtf8 text) with
      | (.ok _, changed) => (.ok text, changed)
      | (.error error, changed) => (.error (.unwritable path error), changed) := by
  rw [proper.normal, Task.appliedBind, Files.appliedWriteText store proper]
  generalize Files.save store path _ = done
  obtain ⟨result, changed⟩ := done
  cases result <;> rfl

/-- The symbols can be written, and then the object program. -/
def Options.Saves (options : Options) (assembly : Assembly) (store final : σ) : Prop :=
  ∃ between, Files.save store options.symbolPath (Text.encodeUtf8 assembly.symbolText) =
      (.ok (), between) ∧
    Files.save between options.objectPath (Text.encodeUtf8 assembly.objectText) = (.ok (), final)

/-- How the command ends: before the first write, with a write that fails, or with both files. -/
inductive Options.Ends (options : Options) (store : σ) : Except Failure Unit → σ → Prop where
  | rejected {failure : Failure} (assembled : options.assemblyIn store = .error failure) :
    Ends options store (.error failure) store
  | symbolsFailed {assembly : Assembly} {error : FileError} {final : σ}
    (assembled : options.assemblyIn store = .ok assembly)
    (symbols : Files.save store options.symbolPath (Text.encodeUtf8 assembly.symbolText) =
      (.error error, final)) :
    Ends options store (.error (.unwritable options.symbolPath error)) final
  | objectFailed {assembly : Assembly} {between final : σ} {error : FileError}
    (assembled : options.assemblyIn store = .ok assembly)
    (symbols : Files.save store options.symbolPath (Text.encodeUtf8 assembly.symbolText) =
      (.ok (), between))
    (object : Files.save between options.objectPath (Text.encodeUtf8 assembly.objectText) =
      (.error error, final)) :
    Ends options store (.error (.unwritable options.objectPath error)) final
  | saved {assembly : Assembly} {final : σ} (assembled : options.assemblyIn store = .ok assembly)
    (saves : options.Saves assembly store final) : Ends options store (.ok ()) final

namespace Options.Ends

variable {options : Options} {store final : σ} {result : Except Failure Unit}

theorem okIff (ends : options.Ends store result final) :
    result = .ok () ↔ ∃ assembly after, options.assemblyIn store = .ok assembly ∧
      options.Saves assembly store after := by
  cases ends with
  | rejected assembled => simp [assembled]
  | symbolsFailed assembled symbols => simp [assembled, Saves, symbols]
  | objectFailed assembled symbols object => simp [assembled, Saves, symbols, object]
  | saved assembled saves => exact iff_of_true rfl ⟨_, _, assembled, saves⟩

theorem ofFailure {failure : Failure} (ends : options.Ends store result final)
    (failed : options.assemblyIn store = .error failure) :
    result = .error failure ∧ final = store := by
  cases ends with
  | rejected assembled => exact ⟨by rw [← Except.error.inj (assembled.symm.trans failed)], rfl⟩
  | symbolsFailed assembled | objectFailed assembled | saved assembled =>
    exact absurd (assembled.symm.trans failed) nofun

end Options.Ends

variable [LawfulFiles σ]

theorem appliedLoadCatalog {options : Options} (formed : options.IsWellFormed) (store : σ) :
    (loadCatalog (.ofOptions options) : Task (StateM σ) Catalog).applied store =
      (options.catalogIn store, store) := by
  have proper : Path.IsProper (options.catalogPath σ) := Options.properCatalog formed
  unfold loadCatalog Options.catalogIn Options.catalogPath
  unfold Options.catalogPath at proper
  rw [options.requestOf]
  dsimp only
  cases given : options.catalog with
  | none =>
    rw [given] at proper
    exact Catalog.appliedOfFile proper store
  | some path =>
    rw [given] at proper
    dsimp only [Option.map_some]
    rw [Task.appliedBind, Catalog.appliedOfFile proper]
    generalize Catalog.inFile store (Path.normal path) = loaded
    cases loaded with
    | error failure => rfl
    | ok catalog => exact Task.appliedReportThen ..

theorem appliedSourceFile {options : Options} (formed : options.IsWellFormed) (catalog : Catalog)
    (store : σ) :
    (Assembly.ofFile { catalog, strict := options.strict } options.sourcePath :
      Task (StateM σ) Assembly).applied store = (options.programIn store catalog, store) := by
  have proper := Options.properSource formed
  unfold Assembly.ofFile Options.programIn
  dsimp only
  rw [proper.normal, Task.appliedBind, Files.appliedReadText store proper]
  cases Files.textAt store options.sourcePath <;> rfl

/-- The command assembles the program, then writes the symbols, and then the object program. -/
theorem performEnds {options : Options} (formed : options.IsWellFormed) (store : σ) :
    ∃ result final,
      (perform (.ofOptions options) : Task (StateM σ) Unit).applied store = (result, final) ∧
      options.Ends store result final := by
  -- A stage that fails is the last one, so there is one case for each stage.
  unfold perform Assembly.saveSymbols Assembly.saveObject
  rw [Task.appliedBind, appliedLoadCatalog formed]
  simp only [options.requestOf]
  cases loaded : options.catalogIn store with
  | error failure =>
    exact ⟨_, _, rfl, .rejected (by rw [Options.assemblyIn, loaded]; rfl)⟩
  | ok catalog =>
    have assembly : options.assemblyIn store = options.programIn store catalog := by
      rw [Options.assemblyIn, loaded]
      rfl
    dsimp only
    rw [Task.appliedReportThen, Task.appliedBind, appliedSourceFile formed]
    cases made : options.programIn store catalog with
    | error failure => exact ⟨_, _, rfl, .rejected (assembly.trans made)⟩
    | ok assembled =>
      dsimp only
      rw [Task.appliedBind, appliedSave _ _ (Options.properSymbols formed)]
      rcases symbols : Files.save store options.symbolPath (Text.encodeUtf8 assembled.symbolText)
        with ⟨_ | _, between⟩
      · exact ⟨_, _, rfl, .symbolsFailed (assembly.trans made) symbols⟩
      · dsimp only
        rw [Task.appliedReportThen, Task.appliedBind,
          appliedSave _ _ (Options.properObject formed)]
        rcases object : Files.save between options.objectPath
          (Text.encodeUtf8 assembled.objectText) with ⟨_ | _, final⟩
        · exact ⟨_, _, rfl, .objectFailed (assembly.trans made) symbols object⟩
        · dsimp only
          rw [Task.appliedReportThen, Task.appliedReportThen, Task.appliedReportIf]
          exact ⟨_, _, rfl, .saved (assembly.trans made) ⟨between, symbols, object⟩⟩

/-- The end of the command is told by its exit code. -/
theorem executeEnds {options : Options} (formed : options.IsWellFormed) (store : σ) :
    ∃ outcome result final,
      (execute options : StateM σ Outcome).run store = (outcome, final) ∧
      outcome.exitCode = exitCodeOf result ∧ options.Ends store result final := by
  obtain ⟨result, final, performed, ends⟩ := performEnds formed store
  let done := (perform (.ofOptions options) : Task (StateM σ) Unit).run.run store
  refine ⟨.ofLogged options.verbose done.1, result, final, ?_, ?_, ends⟩
  · change (Outcome.ofLogged options.verbose done.1, done.2) = _
    rw [(Prod.mk.inj performed).2]
  · rw [← (Prod.mk.inj performed).1]
    unfold Outcome.ofLogged
    dsimp only
    cases done.1.result <;> rfl

open LawfulFiles (place? content?)

/-- The output files are not the same. -/
def Options.KeepsApart (options : Options) (store : σ) : Prop :=
  ∀ place, place? store options.objectPath = some place →
    place? store options.symbolPath ≠ some place

/-- The path leads to a file with the bytes of the text, which are read as this text again. -/
def HasText (store : σ) (path text : Text) : Prop :=
  ∃ place, place? store path = some place ∧ content? store place = some (Text.encodeUtf8 text) ∧
    Text.decodeUtf8 (Text.encodeUtf8 text) = .ok text

/-- The program is what becomes of the source file with the catalog of the catalog file. -/
def Options.Assembles (options : Options) (store : σ) (assembly : Assembly) : Prop :=
  ∃ table catalog source, HasText store (options.catalogPath σ) table ∧
    (Catalog.load (Text.lines (Text.unifyLineEnds table))).result = .ok catalog ∧
    HasText store options.sourcePath source ∧
    (Assembly.ofText { catalog, strict := options.strict } options.sourcePath
      (Text.unifyLineEnds source)).result = .ok assembly

/-- The output files hold the symbols and the object program, and all other files are as they
were. -/
structure Options.Written (options : Options) (assembly : Assembly) (store final : σ) : Prop where
  symbols : HasText final options.symbolPath assembly.symbolText
  object : HasText final options.objectPath assembly.objectText
  others : ∀ place, place? store options.objectPath ≠ some place →
    place? store options.symbolPath ≠ some place → content? final place = content? store place

theorem hasTextOfPlace {store : σ} {path text : Text} {place : LawfulFiles.Place σ}
    (leads : place? store path = some place)
    (holds : content? store place = some (Text.encodeUtf8 text)) : HasText store path text :=
  ⟨place, leads, holds, Text.decodeUtf8EncodeUtf8 text⟩

theorem hasTextOfTextAt {store : σ} {path text : Text}
    (found : Files.textAt store path = .ok text) :
    ∃ written, HasText store path written ∧ text = Text.unifyLineEnds written := by
  obtain ⟨bytes, written, read, decoded, unified⟩ := Files.textAtEqOk found
  obtain ⟨place, leads, holds⟩ := LawfulFiles.loaded store path bytes read
  rw [Text.decodeUtf8Iff.1 decoded] at holds
  exact ⟨written, hasTextOfPlace leads holds, unified⟩

theorem Options.assemblesOfAssemblyIn {options : Options} {assembly : Assembly} {store : σ}
    (assembled : options.assemblyIn store = .ok assembly) : options.Assembles store assembly := by
  obtain ⟨catalog, loaded, programmed⟩ := bindEqOk.1 assembled
  obtain ⟨unifiedTable, tableFound, loaded⟩ := bindEqOk.1 loaded
  obtain ⟨unifiedSource, sourceFound, made⟩ := bindEqOk.1 programmed
  obtain ⟨table, hasTable, rfl⟩ := hasTextOfTextAt tableFound
  obtain ⟨source, hasSource, rfl⟩ := hasTextOfTextAt sourceFound
  exact ⟨table, catalog, source, hasTable, okOfMapError loaded, hasSource, okOfMapError made⟩

namespace Options.Ends

variable {options : Options} {store final : σ} {result : Except Failure Unit}

theorem written (ends : options.Ends store (.ok ()) final) (apart : options.KeepsApart store) :
    ∃ assembly, options.assemblyIn store = .ok assembly ∧ options.Assembles store assembly ∧
      options.Written assembly store final := by
  rcases ends with _ | _ | _ | ⟨assembled, between, savedSymbols, savedObject⟩
  obtain ⟨symbols, toSymbols, holdsSymbols, keptBySymbols, leading⟩ :=
    LawfulFiles.saved _ _ _ _ savedSymbols
  obtain ⟨object, toObject, holdsObject, keptByObject, stillLeading⟩ :=
    LawfulFiles.saved _ _ _ _ savedObject
  -- The places of both files are known before the symbols are written.
  rw [leading] at toObject
  have different : symbols ≠ object := by
    rintro rfl
    exact apart symbols toObject toSymbols
  have leads (path : Text) : place? final path = place? store path := by
    rw [stillLeading, leading]
  refine ⟨_, assembled, assemblesOfAssemblyIn assembled, ?_, ?_, ?_⟩
  · refine hasTextOfPlace ((leads _).trans toSymbols) ?_
    rw [keptByObject symbols different, holdsSymbols]
  · exact hasTextOfPlace ((leads _).trans toObject) holdsObject
  · intro place notObject notSymbols
    rw [keptByObject place (by rintro rfl; exact notObject toObject),
      keptBySymbols place (by rintro rfl; exact notSymbols toSymbols)]

/-- The symbols may be written already when the object program cannot be. -/
theorem objectKept (ends : options.Ends store result final) (failed : result ≠ .ok ())
    (apart : options.KeepsApart store) :
    ∀ place, place? store options.objectPath = some place →
      content? final place = content? store place := by
  intro place leads
  cases ends with
  | rejected => rfl
  | symbolsFailed _ symbols => exact LawfulFiles.failed _ _ _ _ _ symbols place
  | objectFailed _ symbols object =>
    obtain ⟨written, toSymbols, _, kept, _⟩ := LawfulFiles.saved _ _ _ _ symbols
    rw [LawfulFiles.failed _ _ _ _ _ object place]
    refine kept place ?_
    rintro rfl
    exact apart place leads toSymbols
  | saved => contradiction

end Options.Ends

/-- The command writes both output files, or the object file stays as it was. It succeeds exactly if
the catalog is loaded, the program is read and assembled, and both files can be written; they hold
the texts of the assembly then. What fails before that changes no file and has its own exit code. -/
theorem objectFollowsSuccess {options : Options} {store : σ} (formed : options.IsWellFormed)
    (apart : options.KeepsApart store)
    (stops : options.assemblyIn store ≠ .error (.assembly .stalled)) :
    ∃ outcome final, (execute options : StateM σ Outcome).run store = (outcome, final) ∧
      (outcome.exitCode = 0 ↔ ∃ assembly after, options.assemblyIn store = .ok assembly ∧
        options.Saves assembly store after) ∧
      (outcome.exitCode = 0 → ∃ assembly, options.assemblyIn store = .ok assembly ∧
        options.Assembles store assembly ∧ options.Written assembly store final) ∧
      (∀ failure, options.assemblyIn store = .error failure →
        failure.inputCode? = some outcome.exitCode ∧
          ∀ place, content? final place = content? store place) ∧
      (outcome.exitCode ≠ 0 → ∀ place, place? store options.objectPath = some place →
        content? final place = content? store place) := by
  obtain ⟨outcome, result, final, ran, code, ends⟩ := executeEnds formed store
  have success : outcome.exitCode = 0 ↔ result = .ok () := by rw [code, exitCodeEqZero]
  refine ⟨outcome, final, ran, success.trans ends.okIff, ?_, ?_, ?_⟩
  · intro zero
    obtain rfl := success.1 zero
    exact ends.written apart
  · intro failure failed
    obtain ⟨rfl, rfl⟩ := ends.ofFailure failed
    refine ⟨?_, fun _ => rfl⟩
    rcases failsAssemblyIn options _ failure failed with rfl | told
    · contradiction
    · rw [told, code]
      rfl
  · intro nonzero
    exact ends.objectKept (mt success.2 nonzero) apart

/-- A catalog of one instruction, a program that uses it, one with an undefined symbol, and a byte
that is no text. -/
def smallStore : FileStore where
  directories := [["build".toList]]
  files :=
    [(["own.data".toList], Text.encodeUtf8 "lda 3 00 1\n".toList),
      (["copy.asm".toList], Text.encodeUtf8 "P\tSTART\t0\n\tLDA\t#5\n\tEND\tP\n".toList),
      (["loose.asm".toList], Text.encodeUtf8 "P\tSTART\t0\n\tLDA\tX\n\tEND\tP\n".toList),
      (["byte.asm".toList], [0xFF])]

/-- The options for one of the programs. -/
def strictOptions (input : String) (catalog : Option String) : Options where
  input := input.toList
  catalog := catalog.map String.toList
  output := some "build/copy.object".toList
  symbols := some "build//copy.symbols".toList
  strict := true

/-- Options that come to nothing: for the undefined symbol, for the byte, and for a standard catalog
that is not there. Each has its exit code. -/
def refusedOptions : List (Options × Nat) :=
  [(strictOptions "loose.asm" (some "./own.data"), 1),
    (strictOptions "byte.asm" (some "own.data"), 3), (strictOptions "copy.asm" none, 2)]

/-- The program is assembled into the object file that the options name, and the other options
change no file. -/
theorem smallStoreOutputs :
    (∃ outcome final,
      (execute (strictOptions "copy.asm" (some "./own.data")) : StateM FileStore Outcome).run
        smallStore = (outcome, final) ∧ outcome.exitCode = 0 ∧
      HasText final "build/copy.object".toList
        "HP 000000000003\nT00000003010005\nE000000\n\n".toList) ∧
    ∀ refused ∈ refusedOptions, ∃ outcome final,
      (execute refused.1 : StateM FileStore Outcome).run smallStore = (outcome, final) ∧
      outcome.exitCode = refused.2 ∧
      ∀ place, final.content? place = smallStore.content? place := by
  have apart (input : String) (catalog : Option String) :
      (strictOptions input catalog).KeepsApart smallStore := by
    intro place toObject toSymbols
    have object : place? smallStore (strictOptions input catalog).objectPath =
        some ["build".toList, "copy.object".toList] := rfl
    have symbols : place? smallStore (strictOptions input catalog).symbolPath =
        some ["build".toList, "copy.symbols".toList] := rfl
    have same := (object.symm.trans toObject).trans (symbols.symm.trans toSymbols).symm
    exact absurd same (by decide)
  constructor
  · have objectText : ((strictOptions "copy.asm" (some "./own.data")).assemblyIn
        smallStore).toOption.map Assembly.objectText =
          some "HP 000000000003\nT00000003010005\nE000000\n\n".toList := by
      decide +kernel
    have stops : (strictOptions "copy.asm" (some "./own.data")).assemblyIn smallStore ≠
        .error (.assembly .stalled) := by
      intro stalled
      rw [stalled] at objectText
      contradiction
    obtain ⟨outcome, final, ran, _, written, _⟩ :=
      objectFollowsSuccess (by decide) (apart _ _) stops
    have success : outcome.exitCode = 0 := by
      have evaluated : ((execute (strictOptions "copy.asm" (some "./own.data")) :
          StateM FileStore Outcome).run smallStore).1.exitCode = 0 := by
        decide +kernel
      rwa [ran] at evaluated
    obtain ⟨assembly, assembled, _, files⟩ := written success
    rw [assembled] at objectText
    have object := files.object
    rw [Option.some.inj objectText] at object
    exact ⟨outcome, final, ran, success, object⟩
  · have codes : ∀ refused ∈ refusedOptions,
        (match refused.1.assemblyIn smallStore with
          | .error failure => failure.inputCode?
          | .ok _ => none) = some refused.2 := by
      decide +kernel
    have formed : ∀ refused ∈ refusedOptions, refused.1.IsWellFormed := by decide
    have allApart : ∀ refused ∈ refusedOptions, refused.1.KeepsApart smallStore := by
      simp only [refusedOptions, List.forall_mem_cons]
      exact ⟨apart _ _, apart _ _, apart _ _, List.forall_mem_nil _⟩
    intro refused listed
    have told := codes refused listed
    cases assembled : refused.1.assemblyIn smallStore with
    | ok assembly =>
      rw [assembled] at told
      contradiction
    | error failure =>
      rw [assembled] at told
      have stops : refused.1.assemblyIn smallStore ≠ .error (.assembly .stalled) := by
        rw [assembled]
        rintro ⟨⟩
        contradiction
      obtain ⟨outcome, final, ran, _, _, failed, _⟩ :=
        objectFollowsSuccess (formed refused listed) (allApart refused listed) stops
      obtain ⟨code, kept⟩ := failed failure assembled
      exact ⟨outcome, final, ran, Option.some.inj (code.symm.trans told), kept⟩

end Command

end SicXe
