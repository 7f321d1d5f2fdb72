/-
This file proves that loading a program reproduces its image, and that no two bytes of a section
share an address.
-/

import SicXe.Catalog.Standard
import SicXe.Proofs.Image.Load

namespace SicXe

open Image

namespace Statement

variable {catalog : Catalog} {statement : Statement}

/-- The count of a `RESB` or `RESW` is not negative. -/
def ReservesForward (statement : Statement) : Prop :=
  statement.directive?.any (·.reserves) = true →
    ∀ count ∈ (readNumber (statement.operands.headD [])).toOption, 0 ≤ count

instance (statement : Statement) : Decidable statement.ReservesForward :=
  inferInstanceAs (Decidable (_ → _))

/-- Only a reservation can take a negative number of bytes. -/
theorem Coherent.sizeNonneg (coherent : Coherent catalog statement)
    (forward : statement.ReservesForward) : 0 ≤ statement.size := by
  have size := coherent.size
  unfold sizeFor at size
  split at size
  · have four := Except.ok.inj size
    omega
  · split at size
    · have counted := Except.ok.inj size
      omega
    · split at size
      · contradiction
      · next count rest found operands =>
        apply forward (by rw [directive?, found]; rfl)
        rw [operands, List.headD_cons, size]
        rfl
      · contradiction
      · next count rest found operands =>
        cases read : readNumber count with
        | error problem => simp [read, Except.map] at size
        | ok value =>
          have nonneg : 0 ≤ value := by
            apply forward (by rw [directive?, found]; rfl)
            rw [operands, List.headD_cons, read]
            rfl
          simp only [read, Except.map, Except.ok.injEq] at size
          omega
      · split at size
        · have counted := Except.ok.inj size
          omega
        · have fixed := Except.ok.inj size
          omega
      · have fixed := Except.ok.inj size
        omega
      · have fixed := Except.ok.inj size
        omega

end Statement

namespace Section

variable {part : Section} {entry : Entry}

theorem poolFills {pool : List Text} {here : Int} {image : Image}
    (literals : ∀ name ∈ pool, IsCode (Literal.size name) (Literal.code name))
    (read : ofCode? here (pool.flatMap Literal.code) = some image) :
    image.Fills here (here + Literal.extent pool) := by
  apply Fills.ofCode _ read
  clear read
  induction pool with
  | nil => exact ⟨rfl, by simp⟩
  | cons name rest inductionHypothesis =>
    exact (literals name List.mem_cons_self).append
      (inductionHypothesis fun other inside => literals other (List.mem_cons_of_mem _ inside))

/-- The bytes of an entry lie between its location and the next one. -/
theorem entryFills {here : Int} {image : Image} (sound : part.Sound entry)
    (located : entry.isComment = false → entry.location = here) (size : 0 ≤ entry.size)
    (read : part.entryImage? entry = some image) : image.Fills here (here + entry.span) := by
  by_cases written : entry.code = []
  · cases places : entry.placesLiterals with
    | false =>
      rw [Sound.imageOfNothing written places] at read
      obtain rfl := Option.some.inj read
      exact Fills.nil _ _
    | true =>
      have plain : entry.isComment = false := by
        rw [Bool.eq_false_iff]
        intro comment
        simp [Statement.placesLiterals, (sound.comment comment).1] at places
      rw [sound.imageOfPlacing places,
        ← poolCodeImage entry.pool entry.location sound.addressed sound.literals,
        located plain] at read
      apply (poolFills sound.literals read).widen
      rw [Entry.span]
      omega
  · obtain ⟨plain, span⟩ := sound.spanOfCode written
    obtain ⟨bytes, isSize, isCode⟩ := sound.width written
    rw [sound.imageOfCode written, located plain] at read
    rw [span, isSize]
    exact Fills.ofCode isCode read

theorem spansNonneg {entries : List Entry} (sizes : ∀ entry ∈ entries, 0 ≤ entry.size) :
    0 ≤ Entry.spans entries := by
  induction entries with
  | nil => decide
  | cons entry rest inductionHypothesis =>
    have first := sizes entry List.mem_cons_self
    have later := inductionHypothesis fun other inside =>
      sizes other (List.mem_cons_of_mem _ inside)
    rw [Entry.spansCons, Entry.span]
    omega

theorem entriesFill {here : Int} {entries : List Entry} {image : Image}
    (sound : ∀ entry ∈ entries, part.Sound entry) (consecutive : Entry.Consecutive here entries)
    (sizes : ∀ entry ∈ entries, 0 ≤ entry.size)
    (read : join? (entries.map part.entryImage?) = some image) :
    image.Fills here (here + Entry.spans entries) := by
  induction entries generalizing here image with
  | nil =>
    obtain rfl := Option.some.inj read
    exact Fills.nil _ _
  | cons entry rest inductionHypothesis =>
    rw [List.map_cons, join?] at read
    obtain ⟨first, readFirst, joined⟩ := Option.bind_eq_some_iff.1 read
    obtain ⟨later, readLater, rfl⟩ := Option.map_eq_some_iff.1 joined
    obtain ⟨located, restConsecutive⟩ := consecutive
    have restSizes : ∀ other ∈ rest, 0 ≤ other.size := fun other inside =>
      sizes other (List.mem_cons_of_mem _ inside)
    have own := entryFills (sound entry List.mem_cons_self) located
      (sizes entry List.mem_cons_self) readFirst
    have others := inductionHypothesis
      (fun other inside => sound other (List.mem_cons_of_mem _ inside)) restConsecutive restSizes
      readLater
    have entrySize := sizes entry List.mem_cons_self
    have restSpans := spansNonneg restSizes
    have span : 0 ≤ entry.span := by rw [Entry.span]; omega
    rw [Entry.spansCons, ← Int.add_assoc]
    exact own.append others (by omega) (by omega)

theorem Sound.imageIsSome (sound : part.Sound entry) :
    (part.entryImage? entry).isSome = true := by
  by_cases written : entry.code = []
  · cases places : entry.placesLiterals with
    | false => rw [Sound.imageOfNothing written places]; rfl
    | true =>
      rw [sound.imageOfPlacing places]
      apply joinIsSome
      intro image inside
      obtain ⟨name, pooled, rfl⟩ := List.mem_map.1 inside
      exact ofCodeIsSome (sound.literals name pooled) _
  · obtain ⟨size, _, isCode⟩ := sound.width written
    rw [sound.imageOfCode written]
    exact ofCodeIsSome isCode _

/-- The patches and the end of a section hold no bytes. -/
theorem recordsImage {catalog : Catalog} {records : List Record}
    (sound : ∀ entry ∈ part.entries, part.Sound entry)
    (consecutive : Entry.Consecutive part.start part.entries)
    (made : part.records catalog = .ok records) : ofRecords? records = part.image? := by
  obtain ⟨emission, emitted, rfl⟩ := recordsCases made
  have statements := emitImage sound consecutive (by simp) emitted
  have patches : ofRecords? part.patchRecords = some [] := by
    unfold patchRecords
    induction part.patches with
    | nil => rfl
    | cons patch rest inductionHypothesis =>
      rw [List.map_cons, ofRecords?, List.map_cons]
      exact (joinNil _).trans inductionHypothesis
  have last : ofRecords? [part.finishRecord catalog] = some [] := rfl
  rw [ofRecordsAppend, ofRecordsAppend, joinJoin, patches, last, statements]
  change join? [part.image?, some [], some []] = _
  rw [← joinTail, joinNil, joinSingleton]
  exact (joinTail _ []).trans (joinSingleton _)

end Section

/-- No literal of the table is marked, and the constants among them are plain. -/
def Section.PlainLiterals (part : Section) : Prop :=
  ∀ name ∈ part.literals.names, Unmarked name ∧
    ∀ constant ∈ Constant.ofLiteral? name, constant.isPlain = true

instance (part : Section) : Decidable part.PlainLiterals :=
  inferInstanceAs (Decidable (∀ _ ∈ _, _ ≠ _ ∧ _))

namespace Assembly.Origin

variable {encoder : Encoder} {laid part : Section} {records : List Record}

theorem located (origin : Origin encoder laid part records) :
    Entry.Consecutive part.start part.entries := by
  rw [origin.shape]
  have keeps (entry : Entry) : (encoder.coded laid entry).toStatement = entry.toStatement ∧
      (encoder.coded laid entry).pool = entry.pool := ⟨rfl, rfl⟩
  exact (Entry.consecutiveMap keeps _ _).2 origin.built.located.1

theorem sound (origin : Origin encoder laid part records)
    (undirected : ∀ directive : Directive, encoder.catalog.get? directive.name = none)
    (data : ∀ entry ∈ part.entries, entry.toStatement.PlainData)
    (literals : part.PlainLiterals) : ∀ entry ∈ part.entries, part.Sound entry := by
  have kept := origin.poolsKept fun name held => (literals name held).1
  intro entry inside
  have plainData := data entry inside
  have pooled : ∀ name ∈ entry.pool, name ∈ part.literals.names := fun name listed =>
    kept.heldOfPool inside listed
  have addressed := kept.addressed entry inside
  obtain ⟨bare, member, rfl⟩ := origin.bareEntry inside
  have reading := origin.built.isRead bare member
  have code := origin.codes bare member
  refine ⟨fun comment => ⟨reading.commentDirective comment, ?_⟩, ?_, ?_,
    origin.built.unpooled bare member, addressed, ?_⟩
  · unfold Encoder.code at code
    rw [if_pos (.inl comment)] at code
    exact (Option.some.inj code).symm
  · intro directive found notByte notWord
    have none : (encoder.code laid bare.toStatement).value? = some [] :=
      Encoder.codeOfDirective (undirected directive) found notByte notWord
    exact Option.some.inj (code.symm.trans none)
  · exact Encoder.codeWidth reading plainData code
  · intro name listed
    exact Literal.isCodeOfPlain (literals name (pooled name listed)).2

end Assembly.Origin

/-- A loader that reads the text records of a section in order finds the image of the section:
the bytes of every statement at its location, and those of every literal at its address. No
address comes twice, and they ascend, if nothing reserves a negative space.

Nothing has to be said about long constants: one of more than 30 bytes fits no record, and the
program that has it does not assemble. -/
theorem Assembly.textRecordsHoldImage {settings : Settings} {file : Text} {lines : List Text}
    {assembly : Assembly} {part : Section} {records : List Record}
    (undirected : ∀ directive : Directive, settings.catalog.get? directive.name = none)
    (assembled : (ofLines settings file lines).result = .ok assembly)
    (emitted : (part, records) ∈ assembly.sections.zip assembly.modules)
    (data : ∀ entry ∈ part.entries, entry.toStatement.PlainData)
    (literals : part.PlainLiterals) :
    ∃ image, ofRecords? records = some image ∧ part.image? = some image ∧
      ((∀ entry ∈ part.entries, entry.toStatement.ReservesForward) →
        (image.map Prod.fst).Pairwise (· < ·)) := by
  obtain ⟨_, laid, _, _, origin⟩ := Assembly.origin assembled emitted
  have sound := origin.sound undirected data literals
  have readable : (part.image?).isSome = true := by
    apply joinIsSome
    intro image inside
    obtain ⟨entry, member, rfl⟩ := List.mem_map.1 inside
    exact (sound entry member).imageIsSome
  obtain ⟨image, found⟩ := Option.isSome_iff_exists.1 readable
  refine ⟨image, ?_, found, ?_⟩
  · rw [Section.recordsImage sound origin.located origin.emitted, found]
  · intro forward
    have sizes : ∀ entry ∈ part.entries, 0 ≤ entry.size := by
      intro entry member
      cases comment : entry.isComment with
      | true =>
        have zero := ((origin.isRead member).comment comment).2.2
        omega
      | false =>
        exact ((origin.isRead member).coherent comment).sizeNonneg (forward entry member)
    exact (Section.entriesFill sound origin.located sizes found).1

/-- A program with code, reserved space, data and two pools of literals. -/
def Assembly.poolingLines : List Text :=
  ["COPY\tSTART\t1000", "\tLDA\t=C'EOF'", "\t+LDT\t#4096", "\tRESB\t2", "\tLTORG",
    "A\tBYTE\tX'f1'", "B\tWORD\t5", "\tLDA\t=X'05'", "\tCLEAR\tX", "\tEND\tCOPY"].map
      String.toList

theorem Assembly.poolingTextRecordsHoldImage :
    ∃ assembly part records,
      (∀ directive : Directive, Catalog.standard.get? directive.name = none) ∧
      (ofLines ⟨Catalog.standard, false, false⟩ [] poolingLines).result = .ok assembly ∧
      (part, records) ∈ assembly.sections.zip assembly.modules ∧
      (∀ entry ∈ part.entries, entry.toStatement.PlainData) ∧ part.PlainLiterals ∧
      ∃ image, ofRecords? records = some image ∧ part.image? = some image ∧
        image.length = 20 ∧ (image.map Prod.fst).Pairwise (· < ·) := by
  have undirected : ∀ directive : Directive, Catalog.standard.get? directive.name = none := by
    intro directive
    cases directive <;> decide
  have evaluated : ∃ assembly ∈
      (ofLines ⟨Catalog.standard, false, false⟩ [] poolingLines).value?,
      ∃ pair ∈ assembly.sections.zip assembly.modules,
        (∀ entry ∈ pair.1.entries, entry.toStatement.PlainData) ∧ pair.1.PlainLiterals ∧
        (∀ entry ∈ pair.1.entries, entry.toStatement.ReservesForward) ∧
        pair.1.image?.map List.length = some 20 := by
    decide +kernel
  obtain ⟨assembly, value, ⟨part, records⟩, emitted, data, literals, forward, total⟩ := evaluated
  have assembled := Logged.valueEqSome.1 value
  obtain ⟨image, read, found, ascending⟩ :=
    textRecordsHoldImage undirected assembled emitted data literals
  refine ⟨assembly, part, records, undirected, assembled, emitted, data, literals, image, read,
    found, ?_, ascending forward⟩
  simpa [found] using total

end SicXe
