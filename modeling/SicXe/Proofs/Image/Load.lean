/-
This file proves that the text records of a section hold its image: a loader that reads them puts
every byte of the statements and of the literals at its own address, in order.
-/

import SicXe.Proofs.Assembly.Sections
import SicXe.Proofs.Code.Width
import SicXe.Proofs.Image.Basic
import SicXe.Proofs.Module.Emission
import SicXe.Proofs.Section.Pool

namespace SicXe

open Image

namespace Section

variable {catalog : Catalog} {part : Section} {entry : Entry}

/-- The bytes of literals, each at the address that the table has for it. -/
def poolImage? (part : Section) (pool : List Text) : Option Image :=
  join? (pool.map fun name => ofCode? (part.literals.lookup name) (Literal.code name))

/-- The bytes of a statement at its location, and those of the literals that it places. -/
def entryImage? (part : Section) (entry : Entry) : Option Image :=
  join? [ofCode? entry.location entry.code,
    if entry.placesLiterals then part.poolImage? entry.pool else some []]

/-- The bytes of all statements and literals of a section. -/
def image? (part : Section) : Option Image :=
  join? (part.entries.map part.entryImage?)

/-- What makes the image of an entry readable and its place known. -/
structure Sound (part : Section) (entry : Entry) : Prop where
  comment : entry.isComment = true → entry.directive? = none ∧ entry.code = []
  codeless : ∀ directive, entry.directive? = some directive → directive ≠ .byte →
    directive ≠ .word → entry.code = []
  width : entry.code ≠ [] → ∃ size : Nat, entry.size = size ∧ IsCode size entry.code
  unpooled : entry.placesLiterals = false → entry.pool = []
  addressed : ∀ before name after, entry.pool = before ++ name :: after →
    part.literals.lookup name = entry.location + Literal.extent before
  literals : ∀ name ∈ entry.pool, IsCode (Literal.size name) (Literal.code name)

namespace Sound

theorem codelessOfPlacing (sound : part.Sound entry) (places : entry.placesLiterals = true) :
    entry.code = [] := by
  simp only [Statement.placesLiterals, Option.any_eq_true] at places
  obtain ⟨directive, found, isPlacing⟩ := places
  apply sound.codeless directive found <;> rintro rfl <;>
    simp [Directive.placesLiterals] at isPlacing

theorem keepsOfCode (sound : part.Sound entry) (written : entry.code ≠ []) :
    entry.placesLiterals = false := by
  rw [Bool.eq_false_iff]
  intro places
  exact written (sound.codelessOfPlacing places)

theorem imageOfCode (sound : part.Sound entry) (written : entry.code ≠ []) :
    part.entryImage? entry = ofCode? entry.location entry.code := by
  rw [entryImage?, sound.keepsOfCode written, if_neg (by decide)]
  exact (joinTail _ []).trans (joinSingleton _)

/-- A statement with code is no comment, and the next one follows its own bytes. -/
theorem spanOfCode (sound : part.Sound entry) (written : entry.code ≠ []) :
    entry.isComment = false ∧ entry.span = entry.size := by
  refine ⟨?_, ?_⟩
  · rw [Bool.eq_false_iff]
    intro comment
    exact written (sound.comment comment).2
  · rw [Entry.span, sound.unpooled (sound.keepsOfCode written), Literal.extentNil]
    exact Int.zero_add _

theorem imageOfPlacing (sound : part.Sound entry) (places : entry.placesLiterals = true) :
    part.entryImage? entry = part.poolImage? entry.pool := by
  rw [entryImage?, sound.codelessOfPlacing places, places, if_pos rfl, ofCodeNil, joinNil,
    joinSingleton]

theorem imageOfNothing (empty : entry.code = []) (keeps : entry.placesLiterals = false) :
    part.entryImage? entry = some [] := by
  rw [entryImage?, empty, keeps, if_neg (by decide), ofCodeNil, joinNil, joinSingleton]

end Sound

/-- The code of literals that follow each other, read from the first address on. -/
theorem poolCodeImage (pool : List Text) (here : Int)
    (addressed : ∀ before name after, pool = before ++ name :: after →
      part.literals.lookup name = here + Literal.extent before)
    (literals : ∀ name ∈ pool, IsCode (Literal.size name) (Literal.code name)) :
    ofCode? here (pool.flatMap Literal.code) = part.poolImage? pool := by
  induction pool generalizing here with
  | nil => rfl
  | cons name rest inductionHypothesis =>
    have first : part.literals.lookup name = here := by
      simpa using addressed [] name rest rfl
    have later := inductionHypothesis (here + Literal.size name)
      (by
        intro before other after shape
        have place := addressed (name :: before) other after (by rw [shape]; rfl)
        rw [place, Literal.extentCons]
        omega)
      (fun other inside => literals other (List.mem_cons_of_mem _ inside))
    rw [List.flatMap_cons, ofCodeAppend (literals name List.mem_cons_self), later, poolImage?,
      poolImage?, List.map_cons, first, joinTail]

theorem poolRecordImage (sound : part.Sound entry) (some : entry.pool ≠ []) :
    ofRecord? (part.poolRecord entry.pool) = part.poolImage? entry.pool := by
  obtain ⟨name, rest, shape⟩ := List.exists_cons_of_ne_nil some
  have first := sound.addressed [] name rest shape
  rw [Literal.extentNil, Int.natCast_zero, Int.add_zero] at first
  have whole := poolCodeImage entry.pool entry.location sound.addressed sound.literals
  rw [← whole, poolRecord, ofRecord?, shape, List.headD_cons, first]

/-- The records of a statement outside of runs hold its image. -/
theorem isolatedImage (sound : part.Sound entry) {records : List Record}
    (isolated : part.isolated? entry = some records) :
    ofRecords? records = part.entryImage? entry := by
  unfold isolated? at isolated
  split at isolated
  · next comment =>
    obtain rfl := Option.some.inj isolated
    obtain ⟨noDirective, empty⟩ := sound.comment comment
    rw [Sound.imageOfNothing empty (by simp [Statement.placesLiterals, noDirective])]
    rfl
  · have quiet {directive : Directive} (found : entry.directive? = some directive)
        (keeps : directive.placesLiterals = false) (notByte : directive ≠ .byte)
        (notWord : directive ≠ .word) : part.entryImage? entry = some [] :=
      Sound.imageOfNothing (sound.codeless directive found notByte notWord)
        (by simp [Statement.placesLiterals, found, keeps])
    have pooled {directive : Directive} (found : entry.directive? = some directive)
        (places : directive.placesLiterals = true) :
        ofRecords? (if entry.pool.isEmpty then [] else [part.poolRecord entry.pool]) =
          part.entryImage? entry := by
      rw [sound.imageOfPlacing (by simp [Statement.placesLiterals, found, places])]
      by_cases empty : entry.pool = []
      · simp [empty, ofRecords?, poolImage?]
      · rw [if_neg (by simpa using empty), ofRecords?, List.map_cons, List.map_nil,
          joinSingleton, poolRecordImage sound empty]
    split at isolated
    · next found => rw [quiet found rfl (by decide) (by decide), ← Option.some.inj isolated]; rfl
    · next found => rw [quiet found rfl (by decide) (by decide), ← Option.some.inj isolated]; rfl
    · next found => rw [quiet found rfl (by decide) (by decide), ← Option.some.inj isolated]; rfl
    · next found => rw [quiet found rfl (by decide) (by decide), ← Option.some.inj isolated]; rfl
    · next found => rw [← Option.some.inj isolated, pooled found rfl]
    · next found => rw [← Option.some.inj isolated, pooled found rfl]
    · next notStart notCsect notExtdef notExtref notLtorg notFinish =>
      split at isolated
      · next empty =>
        obtain rfl := Option.some.inj isolated
        have none : entry.placesLiterals = false := by
          unfold Statement.placesLiterals
          cases found : entry.directive? with
          | none => rfl
          | some directive => cases directive <;> simp_all [Directive.placesLiterals]
        rw [Sound.imageOfNothing (by simpa using empty) none]
        rfl
      · contradiction

end Section

namespace Run

variable {part : Section} {entry : Entry} {run : Run}

/-- The code of the run fills the addresses from its start to the given one. -/
def Reaches (run : Run) (here : Int) : Prop :=
  ∃ size : Nat, run.size = size ∧ IsCode size run.code ∧ run.start + size = here

/-- A statement that joins the run stands where the run ends, and is read behind it. -/
theorem Reaches.add {here : Int} (reaches : run.Reaches here) (sound : part.Sound entry)
    (written : entry.code ≠ []) (located : entry.location = here) :
    (run.add entry).Reaches (here + entry.size) ∧
      ofRecord? (run.add entry).record = join? [ofRecord? run.record, part.entryImage? entry] := by
  obtain ⟨size, isSize, isCode, ends⟩ := reaches
  obtain ⟨more, isMore, moreCode⟩ := sound.width written
  refine ⟨⟨size + more, ?_, isCode.append moreCode, ?_⟩, ?_⟩
  · rw [Run.add, isSize, isMore, Int.natCast_add]
  · rw [Run.add, isMore, ← ends, Int.natCast_add, Int.add_assoc]
  · rw [sound.imageOfCode written, located, ← ends]
    exact ofCodeAppend isCode run.start entry.code

end Run

namespace Section

variable {catalog : Catalog} {file : Text} {part : Section} {entry : Entry}

/-- A loader that reads the records of the statements behind a run in progress finds the run, and
then the image of every statement. -/
theorem emitImage {here : Int} {pending : Option Run} {entries : List Entry}
    {records : List Record} (sound : ∀ entry ∈ entries, part.Sound entry)
    (consecutive : Entry.Consecutive here entries) (reaches : ∀ run ∈ pending, run.Reaches here)
    (emitted : part.emit pending entries = .ok records) :
    ofRecords? records =
      join? ((closed pending).map ofRecord? ++ entries.map part.entryImage?) := by
  induction entries generalizing here pending records with
  | nil =>
    obtain rfl := Except.ok.inj emitted
    rw [ofRecords?, List.map_nil, List.append_nil, closed]
  | cons entry rest inductionHypothesis =>
    have entrySound := sound entry List.mem_cons_self
    have restSound : ∀ other ∈ rest, part.Sound other := fun other inside =>
      sound other (List.mem_cons_of_mem _ inside)
    obtain ⟨located, restConsecutive⟩ := consecutive
    rcases emitCases emitted with ⟨run, rfl, accepted, makes⟩ |
      ⟨_, later, ⟨own, isolated, makes, rfl⟩ | ⟨_, accepted, makes, rfl⟩⟩
    · have written := Run.acceptsCode accepted
      obtain ⟨plain, span⟩ := entrySound.spanOfCode written
      rw [span] at restConsecutive
      -- The run ends where the statement stands, so that their bytes make one stretch.
      obtain ⟨reachesNext, record⟩ := (reaches run rfl).add entrySound written (located plain)
      rw [inductionHypothesis restSound restConsecutive (by rintro _ ⟨⟩; exact reachesNext) makes]
      change join? (ofRecord? (run.add entry).record :: rest.map part.entryImage?) = _
      rw [record, joinJoin]
      rfl
    · have readLater := inductionHypothesis restSound restConsecutive (by simp) makes
      calc ofRecords? (closed pending ++ own ++ later)
          = join? [ofRecords? (closed pending), ofRecords? own, ofRecords? later] := by
            rw [ofRecordsAppend, ofRecordsAppend, joinJoin]
            rfl
        _ = join? [ofRecords? (closed pending),
              join? (part.entryImage? entry :: rest.map part.entryImage?)] := by
            rw [isolatedImage entrySound isolated, readLater, ← joinTail,
              joinTail (part.entryImage? entry)]
            rfl
        _ = _ := by
            rw [List.map_cons, joinHalves]
            rfl
    · have written := Run.acceptsCode accepted
      obtain ⟨plain, span⟩ := entrySound.spanOfCode written
      rw [span] at restConsecutive
      -- A new run is the empty one before the statement, which the statement joins.
      have start : (Run.before entry).Reaches here := by
        refine ⟨0, rfl, ⟨rfl, by simp [Run.before]⟩, ?_⟩
        rw [Run.before, located plain]
        exact Int.add_zero here
      obtain ⟨reachesNext, record⟩ := start.add entrySound written (located plain)
      have readLater := inductionHypothesis restSound restConsecutive
        (by rintro _ ⟨⟩; exact reachesNext) makes
      have single : ofRecord? ((Run.before entry).add entry).record = part.entryImage? entry := by
        rw [record]
        exact (joinNil _).trans (joinSingleton _)
      calc ofRecords? (closed pending ++ later)
          = join? [ofRecords? (closed pending),
              join? (part.entryImage? entry :: rest.map part.entryImage?)] := by
            rw [ofRecordsAppend, readLater, ← single]
            rfl
        _ = _ := by
            rw [List.map_cons, joinHalves]
            rfl

end Section

end SicXe
