/-
This file says what the records of a section are made of, one statement at a time.
-/

import SicXe.ObjectModule

namespace SicXe

namespace Entry

/-- The bytes of the statements, without those of their literals. -/
def sizes (entries : List Entry) : Int :=
  entries.foldr (fun entry total => entry.size + total) 0

@[simp] theorem sizesNil : sizes [] = 0 := rfl

@[simp] theorem sizesCons (entry : Entry) (rest : List Entry) :
    sizes (entry :: rest) = entry.size + sizes rest := rfl

theorem sizesAppend (first second : List Entry) :
    sizes (first ++ second) = sizes first + sizes second := by
  induction first with
  | nil => simp
  | cons entry rest inductionHypothesis =>
    rw [List.cons_append, sizesCons, sizesCons, inductionHypothesis, Int.add_assoc]

end Entry

namespace Run

variable {run : Run} {entry : Entry}

theorem extendEqSome {next : Run} :
    run.extend? entry = some next ↔ run.accepts entry = true ∧ next = run.add entry := by
  unfold extend?
  split
  · next accepted => simp [accepted, eq_comm]
  · next refused => simp [refused]

theorem acceptsCode (accepted : run.accepts entry = true) : entry.code ≠ [] := by
  intro empty
  simp [accepts, empty] at accepted

/-- The run of no statement that stands before a statement. -/
def before (entry : Entry) : Run :=
  ⟨entry.location, [], 0⟩

/-- The run holds the code of a block of statements, which begins at its start and keeps the
limit. -/
structure Holds (run : Run) (block : List Entry) : Prop where
  start : block.head?.map (·.location) = some run.start
  code : run.code = block.flatMap (·.code)
  size : run.size = Entry.sizes block
  bounded : run.size ≤ maxSize
  written : ∀ entry ∈ block, entry.code ≠ []

theorem acceptsBound (accepted : run.accepts entry = true) : run.size + entry.size ≤ maxSize := by
  simp only [accepts, Bool.and_eq_true, decide_eq_true_eq] at accepted
  exact accepted.2

theorem Holds.add {block : List Entry} (holds : run.Holds block)
    (accepted : run.accepts entry = true) : (run.add entry).Holds (block ++ [entry]) where
  start := by
    cases block with
    | nil => exact absurd holds.start (by simp)
    | cons first rest => exact holds.start
  code := by simp [Run.add, holds.code]
  size := by simp [Run.add, holds.size, Entry.sizesAppend]
  bounded := acceptsBound accepted
  written := by
    intro other inside
    rcases List.mem_append.1 inside with old | new
    · exact holds.written other old
    · rw [List.mem_singleton.1 new]
      exact acceptsCode accepted

theorem holdsFirst (accepted : (before entry).accepts entry = true) :
    ((before entry).add entry).Holds [entry] where
  start := rfl
  code := by simp [Run.add, before]
  size := by simp [Run.add, before]
  bounded := acceptsBound accepted
  written := by
    intro other inside
    rw [List.mem_singleton.1 inside]
    exact acceptsCode accepted

end Run

/-- The record is that of a run over consecutive entries. -/
def Record.HoldsRun (record : Record) (entries : List Entry) : Prop :=
  ∃ run : Run, ∃ block, block <:+: entries ∧ run.Holds block ∧ record = run.record

namespace Section

variable {part : Section}

/-- The record of the literals placed at a statement, of which there has to be one. -/
def poolRecord (part : Section) (pool : List Text) : Record :=
  .text (part.literals.lookup (pool.headD [])) (pool.flatMap Literal.code)

theorem literalRecordEq {pool : List Text} (filled : pool ≠ []) :
    part.literalRecord pool = .ok (part.poolRecord pool) := by
  obtain ⟨first, rest, rfl⟩ := List.exists_cons_of_ne_nil filled
  rfl

/-- The records of a statement outside of runs, without the accesses that may lapse. -/
def isolated? (part : Section) (entry : Entry) : Option (List Record) :=
  if entry.isComment then some []
  else match entry.directive? with
    | some .start | some .csect => some [.header entry.label part.start part.length]
    | some .extdef =>
      some [.define (entry.operands.map fun name => (name, part.symbols.lookup name))]
    | some .extref => some [.refer entry.operands]
    | some .ltorg | some .finish =>
      some (if entry.pool.isEmpty then [] else [part.poolRecord entry.pool])
    | _ => if entry.code.isEmpty then some [] else none

/-- The pool of a statement is asked for its first literal only if there is one. -/
theorem ownRecordsEq (entry : Entry) : part.ownRecords entry = .ok (part.isolated? entry) := by
  have pooled : (if entry.pool.isEmpty then .ok (some [])
      else (part.literalRecord entry.pool).map fun record => some [record]) =
        Except.ok (some (if entry.pool.isEmpty then [] else [part.poolRecord entry.pool])) := by
    split
    · rfl
    · next filled =>
      rw [literalRecordEq (by simpa using filled)]
      rfl
  unfold ownRecords isolated?
  split
  · rfl
  · cases entry.directive? with
    | none => rfl
    | some directive =>
      cases directive with
      | ltorg => exact pooled
      | finish => exact pooled
      | _ => rfl

theorem emitCons (pending : Option Run) (entry : Entry) (rest : List Entry) :
    part.emit pending (entry :: rest) =
      match pending.bind (·.extend? entry) with
      | some run => part.emit (some run) rest
      | none =>
        match part.isolated? entry with
        | some records =>
          (part.emit none rest).map ((pending.map Run.record).toList ++ records ++ ·)
        | none =>
          match Run.begin? entry with
          | some run => (part.emit (some run) rest).map ((pending.map Run.record).toList ++ ·)
          | none => .error .stalled := by
  rw [emit, ownRecordsEq]
  rfl

/-- The record of a run that ends. -/
def closed (pending : Option Run) : List Record :=
  (pending.map Run.record).toList

/-- A statement joins the run in progress; or it ends the run and has records of its own; or it
ends the run and begins another. -/
theorem emitCases {pending : Option Run} {entry : Entry} {rest : List Entry}
    {records : List Record} (emitted : part.emit pending (entry :: rest) = .ok records) :
    (∃ run, pending = some run ∧ run.accepts entry = true ∧
      part.emit (some (run.add entry)) rest = .ok records) ∨
    ((∀ run ∈ pending, run.accepts entry = false) ∧ ∃ later,
      (∃ own, part.isolated? entry = some own ∧ part.emit none rest = .ok later ∧
        records = closed pending ++ own ++ later) ∨
      (part.isolated? entry = none ∧ (Run.before entry).accepts entry = true ∧
        part.emit (some ((Run.before entry).add entry)) rest = .ok later ∧
        records = closed pending ++ later)) := by
  have opened {convert : List Record → List Record} {made : Except AssemblyError (List Record)}
      (same : made.map convert = .ok records) :
      ∃ later, made = .ok later ∧ records = convert later := by
    cases made with
    | error error => simp [Except.map] at same
    | ok later => exact ⟨later, rfl, (Except.ok.inj same).symm⟩
  rw [emitCons] at emitted
  split at emitted
  · next run joined =>
    obtain ⟨current, rfl, extended⟩ := Option.bind_eq_some_iff.1 joined
    obtain ⟨accepted, rfl⟩ := Run.extendEqSome.1 extended
    exact .inl ⟨current, rfl, accepted, emitted⟩
  · next refused =>
    refine .inr ⟨?_, ?_⟩
    · rintro run rfl
      have stays : run.extend? entry = none := by simpa using refused
      rw [Run.extend?] at stays
      simpa using stays
    · split at emitted
      · next own isolated =>
        obtain ⟨later, makes, shape⟩ := opened emitted
        exact ⟨later, .inl ⟨own, isolated, makes, shape⟩⟩
      · next joins =>
        split at emitted
        · next run begun =>
          obtain ⟨accepted, rfl⟩ := Run.extendEqSome.1 begun
          obtain ⟨later, makes, shape⟩ := opened emitted
          exact ⟨later, .inr ⟨joins, accepted, makes, shape⟩⟩
        · contradiction

theorem recordsCases {catalog : Catalog} {records : List Record}
    (made : part.records catalog = .ok records) :
    ∃ emission, part.emit none part.entries = .ok emission ∧
      records = emission ++ part.patchRecords ++ [part.finishRecord catalog] := by
  unfold Section.records at made
  cases emitted : part.emit none part.entries with
  | error error => simp [emitted, Except.map] at made
  | ok emission =>
    simp only [emitted, Except.map, Except.ok.injEq] at made
    exact ⟨emission, rfl, made.symm⟩

/-- A statement outside of runs has a header, a list of names, or the record of its pool. -/
theorem memIsolated {entry : Entry} {own : List Record} {record : Record}
    (isolated : part.isolated? entry = some own) (inside : record ∈ own) :
    record = .header entry.label part.start part.length ∨
      (∃ symbols, record = .define symbols) ∨ (∃ names, record = .refer names) ∨
      (entry.pool ≠ [] ∧ record = part.poolRecord entry.pool) := by
  have pooled (inside : record ∈ if entry.pool.isEmpty then [] else [part.poolRecord entry.pool]) :
      entry.pool ≠ [] ∧ record = part.poolRecord entry.pool := by
    split at inside
    · simp at inside
    · next some => exact ⟨by simpa using some, List.mem_singleton.1 inside⟩
  unfold isolated? at isolated
  split at isolated
  · obtain rfl := Option.some.inj isolated
    simp at inside
  · split at isolated
    · obtain rfl := Option.some.inj isolated
      exact .inl (List.mem_singleton.1 inside)
    · obtain rfl := Option.some.inj isolated
      exact .inl (List.mem_singleton.1 inside)
    · obtain rfl := Option.some.inj isolated
      exact .inr (.inl ⟨_, List.mem_singleton.1 inside⟩)
    · obtain rfl := Option.some.inj isolated
      exact .inr (.inr (.inl ⟨_, List.mem_singleton.1 inside⟩))
    · obtain rfl := Option.some.inj isolated
      exact .inr (.inr (.inr (pooled inside)))
    · obtain rfl := Option.some.inj isolated
      exact .inr (.inr (.inr (pooled inside)))
    · split at isolated
      · obtain rfl := Option.some.inj isolated
        simp at inside
      · contradiction

/-- The run in progress, if there is one, holds the last of the statements read so far. -/
def Begun (pending : Option Run) (earlier : List Entry) : Prop :=
  ∀ run ∈ pending, ∃ block, block <:+ earlier ∧ run.Holds block

theorem begunNone {earlier : List Entry} : Begun none earlier := nofun

/-- Every record comes from a statement outside of runs, or holds the code of consecutive
statements, the first of which may have been read before. -/
theorem emitSources {earlier entries : List Entry} {pending : Option Run} {records : List Record}
    (begun : Begun pending earlier) (emitted : part.emit pending entries = .ok records)
    {record : Record} (inside : record ∈ records) :
    (∃ entry ∈ entries, ∃ own, part.isolated? entry = some own ∧ record ∈ own) ∨
      record.HoldsRun (earlier ++ entries) := by
  have closing {pending : Option Run} {earlier later : List Entry} (begun : Begun pending earlier)
      (held : record ∈ closed pending) : record.HoldsRun (earlier ++ later) := by
    cases pending with
    | none => simp [closed] at held
    | some run =>
      obtain ⟨block, tail, holds⟩ := begun run rfl
      have same : record = run.record := by simpa [closed] using held
      exact ⟨run, block, tail.isInfix.trans (List.prefix_append _ _).isInfix, holds, same⟩
  -- The run in progress may hold entries that are read already, which `earlier` remembers.
  induction entries generalizing earlier pending records with
  | nil =>
    obtain rfl := Except.ok.inj emitted
    exact .inr (closing begun inside)
  | cons entry rest inductionHypothesis =>
    have behind {next : Option Run} {later : List Record} (begun : Begun next (earlier ++ [entry]))
        (makes : part.emit next rest = .ok later) (inside : record ∈ later) :
        (∃ other ∈ entry :: rest, ∃ own, part.isolated? other = some own ∧ record ∈ own) ∨
          record.HoldsRun (earlier ++ entry :: rest) := by
      rcases inductionHypothesis begun makes inside with ⟨other, deeper, source⟩ | run
      · exact .inl ⟨other, List.mem_cons_of_mem _ deeper, source⟩
      · exact .inr (by simpa using run)
    rcases emitCases emitted with ⟨run, rfl, accepted, makes⟩ |
      ⟨_, later, ⟨own, isolated, makes, rfl⟩ | ⟨_, accepted, makes, rfl⟩⟩
    · refine behind ?_ makes inside
      rintro _ ⟨⟩
      obtain ⟨block, ⟨front, rfl⟩, holds⟩ := begun run rfl
      exact ⟨block ++ [entry], ⟨front, by simp⟩, holds.add accepted⟩
    · rcases List.mem_append.1 inside with early | late
      · rcases List.mem_append.1 early with ended | single
        · exact .inr (closing begun ended)
        · exact .inl ⟨entry, List.mem_cons_self, own, isolated, single⟩
      · exact behind begunNone makes late
    · rcases List.mem_append.1 inside with ended | late
      · exact .inr (closing begun ended)
      · refine behind ?_ makes late
        rintro _ ⟨⟩
        exact ⟨[entry], List.suffix_append _ _, Run.holdsFirst accepted⟩

/-- A header tells where the section starts and how long it is. -/
theorem headerOfRecords {catalog : Catalog} {records : List Record} {name : Text}
    {start length : Int} (made : part.records catalog = .ok records)
    (inside : .header name start length ∈ records) : start = part.start ∧ length = part.length := by
  obtain ⟨emission, emitted, rfl⟩ := recordsCases made
  have held : .header name start length ∈ emission := by
    simpa [patchRecords, finishRecord] using inside
  rcases emitSources (begunNone : Begun none []) emitted held with
    ⟨entry, _, own, isolated, listed⟩ | ⟨run, _, _, _, same⟩
  · rcases memIsolated isolated listed with same | ⟨_, same⟩ | ⟨_, same⟩ | ⟨_, same⟩
    · obtain ⟨_, rfl, rfl⟩ := Record.header.inj same
      exact ⟨rfl, rfl⟩
    all_goals contradiction
  · contradiction

/-- A text record holds the code of consecutive statements or that of a pool. -/
theorem textOfRecords {catalog : Catalog} {records : List Record} {start : Int} {code : Text}
    (made : part.records catalog = .ok records) (inside : .text start code ∈ records) :
    (∃ block, block <:+: part.entries ∧ Run.Holds ⟨start, code, Entry.sizes block⟩ block) ∨
      ∃ entry ∈ part.entries, entry.pool ≠ [] ∧ .text start code = part.poolRecord entry.pool := by
  obtain ⟨emission, emitted, rfl⟩ := recordsCases made
  have held : .text start code ∈ emission := by
    simpa [patchRecords, finishRecord] using inside
  rcases emitSources (begunNone : Begun none []) emitted held with
    ⟨entry, member, own, isolated, listed⟩ | ⟨⟨_, _, size⟩, block, consecutive, holds, same⟩
  · rcases memIsolated isolated listed with same | ⟨_, same⟩ | ⟨_, same⟩ | pooled
    · contradiction
    · contradiction
    · contradiction
    · exact .inr ⟨entry, member, pooled⟩
  · obtain ⟨rfl, rfl⟩ := Record.text.inj same
    obtain rfl := holds.size
    exact .inl ⟨block, consecutive, holds⟩

/-- The records of a statement without code are among those of all statements. -/
theorem emitIsolated {pending : Option Run} {entries : List Entry} {records : List Record}
    (emitted : part.emit pending entries = .ok records) {entry : Entry} {own : List Record}
    (inside : entry ∈ entries) (empty : entry.code = [])
    (isolated : part.isolated? entry = some own) : own ⊆ records := by
  induction entries generalizing pending records with
  | nil => simp at inside
  | cons first rest inductionHypothesis =>
    intro record held
    have behind {next : Option Run} {later : List Record} (deeper : entry ∈ rest)
        (makes : part.emit next rest = .ok later) : record ∈ later :=
      inductionHypothesis makes deeper held
    rcases emitCases emitted with ⟨run, _, accepted, makes⟩ |
      ⟨_, later, ⟨others, isolatedFirst, makes, rfl⟩ | ⟨joins, _, makes, rfl⟩⟩
    · rcases List.mem_cons.1 inside with rfl | deeper
      · exact absurd empty (Run.acceptsCode accepted)
      · exact behind deeper makes
    · rcases List.mem_cons.1 inside with rfl | deeper
      · rw [isolated] at isolatedFirst
        obtain rfl := Option.some.inj isolatedFirst
        simp [held]
      · simp [behind deeper makes]
    · rcases List.mem_cons.1 inside with rfl | deeper
      · rw [isolated] at joins
        contradiction
      · simp [behind deeper makes]

/-- If some statements, all without code, have one record of a kind each, and there are no others
of this kind, then the records of the kind follow these statements in order. -/
theorem emitPicks {α : Type} {pick : Record → Option α} {links : Entry → Bool} {shape : Entry → α}
    (texts : ∀ start code, pick (.text start code) = none) {pending : Option Run}
    {entries : List Entry} {records : List Record}
    (emitted : part.emit pending entries = .ok records)
    (own : ∀ entry ∈ entries, ((part.isolated? entry).getD []).filterMap pick =
      if links entry then [shape entry] else [])
    (codeless : ∀ entry ∈ entries, links entry = true → entry.code = []) :
    records.filterMap pick = (entries.filter links).map shape := by
  have unpicked (pending : Option Run) : (closed pending).filterMap pick = [] := by
    cases pending with
    | none => rfl
    | some run => simp [closed, Run.record, texts]
  induction entries generalizing pending records with
  | nil =>
    obtain rfl := Except.ok.inj emitted
    exact unpicked pending
  | cons entry rest inductionHypothesis =>
    have behind {next : Option Run} {later : List Record}
        (makes : part.emit next rest = .ok later) :
        later.filterMap pick = (rest.filter links).map shape :=
      inductionHypothesis makes (fun other inside => own other (List.mem_cons_of_mem _ inside))
        (fun other inside => codeless other (List.mem_cons_of_mem _ inside))
    have first := own entry List.mem_cons_self
    rcases emitCases emitted with ⟨run, _, accepted, makes⟩ |
      ⟨_, later, ⟨others, isolated, makes, rfl⟩ | ⟨joins, _, makes, rfl⟩⟩
    · have unlinked : ¬ links entry = true := fun linked =>
        Run.acceptsCode accepted (codeless entry List.mem_cons_self linked)
      rw [List.filter_cons_of_neg unlinked, behind makes]
    · rw [isolated, Option.getD_some] at first
      rw [List.filterMap_append, List.filterMap_append, unpicked, List.nil_append, first,
        behind makes]
      cases linked : links entry <;> simp [linked]
    · rw [joins] at first
      cases linked : links entry with
      | true => simp [linked] at first
      | false => simp [unpicked, behind makes, linked]

end Section

end SicXe
