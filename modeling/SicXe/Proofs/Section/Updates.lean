/-
This file says what every run of updates leaves in a symbol table and in a literal table. The first
definition of a name decides its place, and its last amendment from then on decides its value.
-/

import SicXe.Proofs.Section.Tables

namespace SicXe

variable {ε : Type}

namespace SymbolTable

inductive Update where
  | define (name : Text) (value : Int)
  | amend (name : Text) (value : Int)

namespace Update

/-- The name that the update adds unless it is there. -/
def definedName? : Update → Option Text
  | define name _ => some (withoutMark name)
  | amend .. => none

/-- The value that the update gives to the name if it is there. -/
def amendedValue? (name : Text) : Update → Option Int
  | define .. => none
  | amend written value => if withoutMark written = name then some value else none

/-- The value of the first definition of the name, or of the last amendment behind it. -/
def finalValue? (name : Text) : List Update → Option Int
  | [] => none
  | amend .. :: later => finalValue? name later
  | define written value :: later =>
    if withoutMark written = name then some ((later.filterMap (amendedValue? name)).getLastD value)
    else finalValue? name later

end Update

def perform (table : SymbolTable) : Update → Logged ε SymbolTable
  | .define name value => table.define name value
  | .amend name value => pure (table.amend name value)

/-- The updates are performed on an empty table. -/
def ofUpdates (updates : List Update) : Logged ε SymbolTable :=
  updates.foldlM perform {}

/-- The table behind an update. -/
def updated (table : SymbolTable) : Update → SymbolTable
  | .define name value => table.insert name value
  | .amend name value => table.amend name value

/-- What a table holds is told by the updates that made it. -/
structure Reflects (table : SymbolTable) (updates : List Update) : Prop where
  distinct : table.names.Nodup
  ordered : table.names = (updates.filterMap Update.definedName?).eraseDups
  held : ∀ name value, (name, value) ∈ table.entries ↔ Update.finalValue? name updates = some value
  found : ∀ name, table.lookup name = (Update.finalValue? name updates).getD (-1)

variable {table : SymbolTable} {name : Text} {value : Int}

theorem valuePerform (table : SymbolTable) (update : Update) :
    (table.perform update : Logged ε SymbolTable).value? = some (table.updated update) := by
  cases update with
  | define name value => exact valueDefine table name value
  | amend name value => rfl

/-- A name that is in the table has the value of the amendment, or keeps its own. -/
theorem getUpdatedOfHeld (held : table.get? name = some value) (update : Update) :
    (table.updated update).get? name = some ((update.amendedValue? name).getD value) := by
  cases update with
  | define written first =>
    rw [updated, getInsert, held]
    rfl
  | amend written new =>
    rw [updated, amend, Table.getReplace, Update.amendedValue?]
    by_cases same : withoutMark written = name
    · rw [if_pos same.symm, if_pos same, same, held]
      rfl
    · rw [if_neg (Ne.symm same), if_neg same, held]
      rfl

theorem getRunOfHeld (held : table.get? name = some value) (updates : List Update) :
    (updates.foldl updated table).get? name =
      some ((updates.filterMap (Update.amendedValue? name)).getLastD value) := by
  induction updates generalizing table value with
  | nil => exact held
  | cons update rest inductionHypothesis =>
    rw [List.foldl_cons, inductionHypothesis (getUpdatedOfHeld held update), List.filterMap_cons]
    cases update.amendedValue? name with
    | none => rfl
    | some new => rw [List.getLastD_cons]; rfl

theorem getRunOfAbsent (absent : table.get? name = none) (updates : List Update) :
    (updates.foldl updated table).get? name = Update.finalValue? name updates := by
  -- The name stays absent up to its first definition, which hands over to the other lemma.
  induction updates generalizing table with
  | nil => exact absent
  | cons update rest inductionHypothesis =>
    rw [List.foldl_cons]
    cases update with
    | amend written new =>
      have still : (table.updated (.amend written new)).get? name = none := by
        rw [updated, amend, Table.getReplace]
        split
        · next same => rw [← same, absent]; rfl
        · exact absent
      exact inductionHypothesis still
    | define written first =>
      have now : (table.updated (.define written first)).get? name =
          if name = withoutMark written then some first else none := by
        rw [updated, getInsert, absent, Option.none_or]
      rw [Update.finalValue?]
      by_cases same : withoutMark written = name
      · rw [if_pos same.symm] at now
        rw [if_pos same, getRunOfHeld now]
      · rw [if_neg (Ne.symm same)] at now
        rw [if_neg same, inductionHypothesis now]

theorem namesRun {earlier : List Text} (listed : table.names = earlier.eraseDups)
    (updates : List Update) : (updates.foldl updated table).names =
      (earlier ++ updates.filterMap Update.definedName?).eraseDups := by
  induction updates generalizing table earlier with
  | nil => rw [List.filterMap_nil, List.append_nil, ← listed]; rfl
  | cons update rest inductionHypothesis =>
    rw [List.foldl_cons]
    cases update with
    | define written first =>
      have named : Update.definedName? (.define written first) = some (withoutMark written) := rfl
      rw [List.filterMap_cons_some named, List.append_cons]
      exact inductionHypothesis (namesInsertEraseDups listed written first)
    | amend written new =>
      have unnamed : Update.definedName? (.amend written new) = none := rfl
      rw [List.filterMap_cons_none unnamed]
      exact inductionHypothesis ((namesAmend table written new).trans listed)

theorem reflectsRun (updates : List Update) :
    Reflects (updates.foldl updated {}) updates := by
  have ordered : (updates.foldl updated {}).names = _ := @namesRun {} [] rfl updates
  have distinct : (updates.foldl updated {}).names.Nodup := ordered ▸ Text.nodupEraseDups _
  have values (name : Text) : (updates.foldl updated {}).get? name = _ :=
    getRunOfAbsent rfl updates
  refine ⟨distinct, ordered, ?_, ?_⟩
  · intro name value
    rw [Table.memEntriesIff distinct, values]
  · intro name
    rw [lookup, values]

end SymbolTable

namespace LiteralTable

inductive Update where
  | values (update : SymbolTable.Update)
  | place (name : Text) (address : Int)

namespace Update

/-- What the update does to the addresses: to place a literal is to amend its address. -/
def onAddresses : Update → SymbolTable.Update
  | values update => update
  | place name address => .amend name address

/-- The name that the update places. -/
def placedName? : Update → Option Text
  | values _ => none
  | place name _ => some (withoutMark name)

end Update

def perform (table : LiteralTable) : Update → Logged ε LiteralTable
  | .values update => do
    let addresses ← table.addresses.perform update
    return { table with addresses }
  | .place name address => pure (table.place name address)

/-- The updates are performed on an empty table. -/
def ofUpdates (updates : List Update) : Logged ε LiteralTable :=
  updates.foldlM perform {}

/-- The table behind an update. -/
def updated (table : LiteralTable) : Update → LiteralTable
  | .values update => { table with addresses := table.addresses.updated update }
  | .place name address => table.place name address

theorem valuePerform (table : LiteralTable) (update : Update) :
    (table.perform update : Logged ε LiteralTable).value? = some (table.updated update) := by
  cases update with
  | values update => simp [perform, updated, SymbolTable.valuePerform]
  | place name address => rfl

theorem placedRun (table : LiteralTable) (updates : List Update) :
    (updates.foldl updated table).placed =
      table.placed ++ updates.filterMap Update.placedName? := by
  induction updates generalizing table with
  | nil => exact (List.append_nil _).symm
  | cons update rest inductionHypothesis =>
    rw [List.foldl_cons, inductionHypothesis]
    cases update with
    | values update => rfl
    | place name address =>
      have named : Update.placedName? (.place name address) = some (withoutMark name) := rfl
      rw [List.filterMap_cons_some named, List.append_cons]
      rfl

/-- Placing drops the mark of a name twice, so that the names to place have one mark at most. -/
theorem addressesRun (table : LiteralTable) {updates : List Update}
    (unmarked : ∀ name address, .place name address ∈ updates → Unmarked (withoutMark name)) :
    (updates.foldl updated table).addresses =
      (updates.map Update.onAddresses).foldl SymbolTable.updated table.addresses := by
  induction updates generalizing table with
  | nil => rfl
  | cons update rest inductionHypothesis =>
    rw [List.foldl_cons, List.map_cons, List.foldl_cons, inductionHypothesis _ fun name address
      inside => unmarked name address (List.mem_cons_of_mem _ inside)]
    cases update with
    | values update => rfl
    | place name address =>
      have once := withoutMarkOfUnmarked (unmarked name address List.mem_cons_self)
      simp only [updated, place, SymbolTable.amend, once]
      rfl

end LiteralTable

/-- Every run of updates ends with a table that lists the defined names once each, in the order of
their first definitions, and finds the value of the last amendment behind it, or of the definition
itself. To place a literal amends its address, and the literals that no update places wait. -/
theorem tablesReflectUpdates (ε : Type) :
    (∀ updates : List SymbolTable.Update, ∃ table,
      (SymbolTable.ofUpdates updates : Logged ε SymbolTable).result = .ok table ∧
        table.Reflects updates) ∧
    ∀ updates : List LiteralTable.Update,
      (∀ name address, .place name address ∈ updates → Unmarked (withoutMark name)) → ∃ table,
        (LiteralTable.ofUpdates updates : Logged ε LiteralTable).result = .ok table ∧
        table.addresses.Reflects (updates.map LiteralTable.Update.onAddresses) ∧
        (∀ name, table.isPlaced name = true ↔
          withoutMark name ∈ updates.filterMap LiteralTable.Update.placedName?) ∧
        table.waiting = table.names.filter
          (!(updates.filterMap LiteralTable.Update.placedName?).contains ·) := by
  constructor
  · intro updates
    refine ⟨updates.foldl SymbolTable.updated {}, ?_, SymbolTable.reflectsRun updates⟩
    exact Logged.valueEqSome.1 (Logged.valueFoldlM SymbolTable.valuePerform {} updates)
  · intro updates unmarked
    have addresses := LiteralTable.addressesRun {} unmarked
    have placed := LiteralTable.placedRun {} updates
    refine ⟨updates.foldl LiteralTable.updated {}, ?_, ?_, ?_, ?_⟩
    · exact Logged.valueEqSome.1 (Logged.valueFoldlM LiteralTable.valuePerform {} updates)
    · rw [addresses]
      exact SymbolTable.reflectsRun _
    · intro name
      rw [LiteralTable.isPlaced, placed, List.contains_iff_mem]
      rfl
    · rw [LiteralTable.waiting, placed]
      rfl

/-- A literal that is placed and amended before its definition, defined twice under its two
spellings, amended and placed again, and another that is only defined. -/
def entangledUpdates : List LiteralTable.Update :=
  [.place "=X'F1'".toList 7, .values (.amend "X'F1'".toList 1),
    .values (.define "=X'F1'".toList 0), .values (.define "X'F1'".toList 5),
    .values (.define "=C'A'".toList 3), .values (.amend "=X'F1'".toList 2),
    .place "X'F1'".toList 9]

/-- The literal has the address of its second place, and it has never waited since it was placed
before its definition; its name with the mark finds nothing. -/
theorem entangledUpdatesReflected :
    ∃ table, (LiteralTable.ofUpdates entangledUpdates : Logged Empty LiteralTable).result =
        .ok table ∧
      table.names = ["X'F1'", "C'A'"].map String.toList ∧
      table.lookup "X'F1'".toList = 9 ∧ table.lookup "C'A'".toList = 3 ∧
      table.lookup "=X'F1'".toList = -1 ∧ table.isPlaced "=X'F1'".toList = true ∧
      table.waiting = ["C'A'".toList] := by
  have unmarked : ∀ name address, .place name address ∈ entangledUpdates →
      Unmarked (withoutMark name) := by
    intro name address inside
    simp only [entangledUpdates, List.mem_cons, reduceCtorEq, LiteralTable.Update.place.injEq,
      List.not_mem_nil, or_false, false_or] at inside
    rcases inside with ⟨rfl, _⟩ | ⟨rfl, _⟩ <;> simp [Unmarked, withoutMark]
  obtain ⟨table, made, reflects, placed, waiting⟩ :=
    (tablesReflectUpdates Empty).2 entangledUpdates unmarked
  have names : table.names = ["X'F1'", "C'A'"].map String.toList :=
    reflects.ordered.trans (by decide)
  refine ⟨table, made, names, ?_, ?_, ?_, (placed _).2 (by decide), ?_⟩
  · exact (reflects.found _).trans (by decide)
  · exact (reflects.found _).trans (by decide)
  · exact (reflects.found _).trans (by decide)
  · rw [waiting, names]
    decide

end SicXe
