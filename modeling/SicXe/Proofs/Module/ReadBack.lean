/-
This file reads the lines of object modules. A header, a text, a modification and an end are read
back from their lines as they were written; only the lines of lists of names tell too little.
-/

import SicXe.Proofs.Module.LinkText

namespace SicXe

open Numeral

namespace Numeral.Hex

/-- The number whose field of this width the text is. -/
def readField? (width : Nat) (text : Text) : Option Int :=
  ((ofField? text).map Int.ofNat).filter fun value => field width value = text

/-- A text is a field of just one number without a sign that fits into the width. -/
theorem readFieldEqSome {width : Nat} (positive : 0 < width) {text : Text} {value : Int} :
    readField? width text = some value ↔
      text = field width value ∧ (BitVec.ofInt (4 * width) value).toNat = value := by
  rw [readField?, Option.filter_eq_some_iff, Option.map_eq_some_iff, decide_eq_true_eq]
  constructor
  · rintro ⟨⟨number, read, rfl⟩, rfl⟩
    rw [ofFieldField positive] at read
    exact ⟨rfl, congrArg Int.ofNat (Option.some.inj read)⟩
  · rintro ⟨rfl, fits⟩
    exact ⟨⟨_, ofFieldField positive value, fits⟩, rfl⟩

theorem readAddress {text : Text} {value : Int} :
    readField? 6 text = some value ↔ text = field 6 value ∧ IsAddress value := by
  rw [readFieldEqSome (by decide), BitVec.toNat_ofInt]
  apply and_congr_right
  intro _
  show _ ↔ 0 ≤ value ∧ value < 0x1000000
  omega

theorem readByte {text : Text} {value : Int} :
    readField? 2 text = some value ↔ text = field 2 value ∧ 0 ≤ value ∧ value ≤ 255 := by
  rw [readFieldEqSome (by decide), BitVec.toNat_ofInt]
  apply and_congr_right
  intro _
  omega

end Numeral.Hex

namespace Record

/-- The numbers of the record fit into their fields, and the record is no list of names. -/
def IsReadable : Record → Prop
  | header _ start length => IsAddress start ∧ IsAddress length
  | text start _ => IsAddress start
  | modification location width _ => IsAddress location ∧ 0 ≤ width ∧ width ≤ 255
  | finish address => ∀ value ∈ address, IsAddress value
  | define _ | refer _ => False

instance : (record : Record) → Decidable record.IsReadable
  | header .. => inferInstanceAs (Decidable (_ ∧ _))
  | text start _ => inferInstanceAs (Decidable (IsAddress start))
  | modification .. => inferInstanceAs (Decidable (_ ∧ _ ∧ _))
  | finish address => inferInstanceAs (Decidable (∀ value ∈ address, IsAddress value))
  | define _ | refer _ => inferInstanceAs (Decidable False)

/-- The name of a header may hold blanks and digits, so it is what the last thirteen characters
leave over. -/
def readHeader? (body : Text) : Option Record :=
  match body.drop (body.length - 13) with
  | ' ' :: digits =>
    match Hex.readField? 6 (digits.take 6), Hex.readField? 6 (digits.drop 6) with
    | some start, some length => some (header (body.take (body.length - 13)) start length)
    | _, _ => none
  | _ => none

/-- The two digits behind the address have to tell the length of the code. -/
def readText? (body : Text) : Option Record :=
  match Hex.readField? 6 (body.take 6) with
  | some start =>
    if (body.drop 6).take 2 = Hex.field 2 (byteCount (body.drop 8)) then
      some (text start (body.drop 8))
    else none
  | none => none

def readModification? (body : Text) : Option Record :=
  match Hex.readField? 6 (body.take 6), Hex.readField? 2 ((body.drop 6).take 2) with
  | some location, some width => some (modification location width (body.drop 8))
  | _, _ => none

def readFinish? : Text → Option Record
  | [] => some (finish none)
  | body => (Hex.readField? 6 body).map fun address => finish (some address)

/-- The record that a line holds, unless it lists names. -/
def ofLine? : Text → Option Record
  | 'H' :: body => readHeader? body
  | 'T' :: body => readText? body
  | 'M' :: body => readModification? body
  | 'E' :: body => readFinish? body
  | _ => none

variable {body : Text} {record : Record}

/-- A text is two fields of known widths and a rest if these make it up. -/
theorem cutFields {first second rest : Text} (firstLength : first.length = 6)
    (secondLength : second.length = 2) :
    body.take 6 = first ∧ (body.drop 6).take 2 = second ∧ body.drop 8 = rest ↔
      body = first ++ second ++ rest := by
  constructor
  · rintro ⟨rfl, rfl, rfl⟩
    have behind : (body.drop 6).drop 2 = body.drop 8 := List.drop_drop
    rw [← behind, List.append_assoc, List.take_append_drop, List.take_append_drop]
  · rintro rfl
    have behind : (first ++ second ++ rest).drop 6 = second ++ rest := by
      rw [List.append_assoc, List.drop_left' firstLength]
    have both : (first ++ second).length = 8 := by
      rw [List.length_append, firstLength, secondLength]
    exact ⟨by rw [List.append_assoc, List.take_left' firstLength],
      by rw [behind, List.take_left' secondLength], List.drop_left' both⟩

theorem headerBody (name : Text) (start length : Int) : (header name start length).body =
    name ++ ' ' :: (Hex.field 6 start ++ Hex.field 6 length) := by
  simp [Record.body]

theorem readHeaderEqSome : readHeader? body = some record ↔
    ∃ name start length, record = header name start length ∧ record.IsReadable ∧
      body = record.body := by
  constructor
  · intro read
    unfold readHeader? at read
    split at read
    · next digits cut =>
      split at read
      · next start length isStart isLength =>
        obtain rfl := Option.some.inj read
        obtain ⟨startField, startFits⟩ := Hex.readAddress.1 isStart
        obtain ⟨lengthField, lengthFits⟩ := Hex.readAddress.1 isLength
        refine ⟨_, start, length, rfl, ⟨startFits, lengthFits⟩, ?_⟩
        calc body = body.take (body.length - 13) ++ body.drop (body.length - 13) :=
              (List.take_append_drop _ _).symm
          _ = body.take (body.length - 13) ++ ' ' :: (digits.take 6 ++ digits.drop 6) := by
              rw [cut, List.take_append_drop]
          _ = _ := by rw [startField, lengthField, headerBody]
      · contradiction
    · contradiction
  · rintro ⟨name, start, length, rfl, ⟨startFits, lengthFits⟩, shape⟩
    rw [headerBody] at shape
    have startLength : (Hex.field 6 start).length = 6 := Hex.fieldLength (by decide) start
    have lengthLength : (Hex.field 6 length).length = 6 := Hex.fieldLength (by decide) length
    have front : body.length - 13 = name.length := by
      simp only [shape, List.length_append, List.length_cons, startLength, lengthLength]
      omega
    unfold readHeader?
    rw [front, shape, List.drop_left, List.take_left]
    simp only [List.take_left' startLength, List.drop_left' startLength,
      Hex.readAddress.2 ⟨rfl, startFits⟩, Hex.readAddress.2 ⟨rfl, lengthFits⟩]

theorem readTextEqSome : readText? body = some record ↔
    ∃ start code, record = text start code ∧ record.IsReadable ∧ body = record.body := by
  have cut {start : Int} {code : Text} : body.take 6 = Hex.field 6 start ∧
      (body.drop 6).take 2 = Hex.field 2 (byteCount code) ∧ body.drop 8 = code ↔
        body = (text start code).body :=
    cutFields (Hex.fieldLength (by decide) start) (Hex.fieldLength (by decide) (byteCount code))
  constructor
  · intro read
    unfold readText? at read
    split at read
    · next start isStart =>
      split at read
      · next counted =>
        obtain rfl := Option.some.inj read
        obtain ⟨startField, startFits⟩ := Hex.readAddress.1 isStart
        exact ⟨start, _, rfl, startFits, cut.1 ⟨startField, counted, rfl⟩⟩
      · contradiction
    · contradiction
  · rintro ⟨start, code, rfl, startFits, shape⟩
    obtain ⟨startField, counted, rest⟩ := cut.2 shape
    simp only [readText?, Hex.readAddress.2 ⟨startField, startFits⟩, rest, if_pos counted]

theorem readModificationEqSome : readModification? body = some record ↔
    ∃ location width symbol, record = modification location width symbol ∧ record.IsReadable ∧
      body = record.body := by
  have cut {location width : Int} {symbol : Text} : body.take 6 = Hex.field 6 location ∧
      (body.drop 6).take 2 = Hex.field 2 width ∧ body.drop 8 = symbol ↔
        body = (modification location width symbol).body :=
    cutFields (Hex.fieldLength (by decide) location) (Hex.fieldLength (by decide) width)
  constructor
  · intro read
    unfold readModification? at read
    split at read
    · next location width isLocation isWidth =>
      obtain rfl := Option.some.inj read
      obtain ⟨locationField, locationFits⟩ := Hex.readAddress.1 isLocation
      obtain ⟨widthField, widthFits⟩ := Hex.readByte.1 isWidth
      exact ⟨location, width, _, rfl, ⟨locationFits, widthFits⟩,
        cut.1 ⟨locationField, widthField, rfl⟩⟩
    · contradiction
  · rintro ⟨location, width, symbol, rfl, ⟨locationFits, widthFits⟩, shape⟩
    obtain ⟨locationField, widthField, rest⟩ := cut.2 shape
    simp only [readModification?, Hex.readAddress.2 ⟨locationField, locationFits⟩,
      Hex.readByte.2 ⟨widthField, widthFits⟩, rest]

theorem readFinishEqSome : readFinish? body = some record ↔
    ∃ address, record = finish address ∧ record.IsReadable ∧ body = record.body := by
  constructor
  · intro read
    cases body with
    | nil =>
      obtain rfl := Option.some.inj read
      exact ⟨none, rfl, nofun, rfl⟩
    | cons char rest =>
      obtain ⟨address, isAddress, rfl⟩ := Option.map_eq_some_iff.1 read
      obtain ⟨addressField, fits⟩ := Hex.readAddress.1 isAddress
      exact ⟨some address, rfl, by rintro _ ⟨⟩; exact fits, addressField⟩
  · rintro ⟨address, rfl, fits, rfl⟩
    cases address with
    | none => rfl
    | some address =>
      have length : (Hex.field 6 address).length = 6 := Hex.fieldLength (by decide) address
      have read := Hex.readAddress.2 ⟨rfl, fits address rfl⟩
      show readFinish? (Hex.field 6 address) = _
      cases shape : Hex.field 6 address with
      | nil => simp [shape] at length
      | cons char rest =>
        rw [shape] at read
        simp [readFinish?, read]

/-- Just the lines of readable records are read, each as its record. -/
theorem ofLineEqSome {written : Text} :
    ofLine? written = some record ↔ record.IsReadable ∧ written = record.line := by
  constructor
  · intro read
    unfold ofLine? at read
    split at read
    · obtain ⟨_, _, _, rfl, readable, rfl⟩ := readHeaderEqSome.1 read
      exact ⟨readable, rfl⟩
    · obtain ⟨_, _, rfl, readable, rfl⟩ := readTextEqSome.1 read
      exact ⟨readable, rfl⟩
    · obtain ⟨_, _, _, rfl, readable, rfl⟩ := readModificationEqSome.1 read
      exact ⟨readable, rfl⟩
    · obtain ⟨_, rfl, readable, rfl⟩ := readFinishEqSome.1 read
      exact ⟨readable, rfl⟩
    · contradiction
  · rintro ⟨readable, rfl⟩
    cases record with
    | header name start length =>
      exact readHeaderEqSome.2 ⟨name, start, length, rfl, readable, rfl⟩
    | text start code => exact readTextEqSome.2 ⟨start, code, rfl, readable, rfl⟩
    | modification location width symbol =>
      exact readModificationEqSome.2 ⟨location, width, symbol, rfl, readable, rfl⟩
    | finish address => exact readFinishEqSome.2 ⟨address, rfl, readable, rfl⟩
    | define symbols => exact readable.elim
    | refer names => exact readable.elim

/-- Every header, text, modification and end is read back from its line, and so no two of them have
the same line. Nothing is read from other lines. -/
theorem linesReadBack :
    (∀ record : Record, record.IsReadable → ofLine? record.line = some record) ∧
    (∀ (written : Text) (record : Record), ofLine? written = some record →
      record.IsReadable ∧ record.line = written) ∧
    ∀ first second : Record, first.IsReadable → second.IsReadable → first.line = second.line →
      first = second := by
  have back (record : Record) (readable : record.IsReadable) :
      ofLine? record.line = some record := ofLineEqSome.2 ⟨readable, rfl⟩
  refine ⟨back, ?_, ?_⟩
  · intro written record read
    obtain ⟨readable, shape⟩ := ofLineEqSome.1 read
    exact ⟨readable, shape.symm⟩
  · intro first second isFirst isSecond same
    apply Option.some.inj
    rw [← back first isFirst, ← back second isSecond, same]

/-- A header whose name looks like its fields, a text with an odd digit, a modification that looks
like a text, and two ends. -/
def trickyRecords : List Record :=
  [header "A 000000".toList 0x1000 0x33, text 0x1000 "17F".toList, text 0 "00".toList,
    modification 0 1 "00".toList, finish (some 0xFFFFFF), finish none]

/-- The lines of the records give them back, and the text and the modification differ in their
lines. -/
theorem trickyRecordsReadBack :
    trickyRecords.map line = ["HA 000000 001000000033", "T0010000117F", "T0000000100",
      "M0000000100", "EFFFFFF", "E"].map String.toList ∧
    (∀ record ∈ trickyRecords, ofLine? record.line = some record) ∧
    (text 0 "00".toList).line ≠ (modification 0 1 "00".toList).line := by
  obtain ⟨back, _, injective⟩ := linesReadBack
  have readable : ∀ record ∈ trickyRecords, record.IsReadable := by decide
  refine ⟨by decide, fun record inside => back record (readable record inside), ?_⟩
  intro same
  have equal := injective _ _ (by decide) (by decide) same
  contradiction

end Record

end SicXe
