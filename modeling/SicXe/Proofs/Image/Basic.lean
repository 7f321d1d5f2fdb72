/-
This file holds the images of sections: bytes with their addresses, read from object code.
-/

import SicXe.Proofs.Code.Bytes
import SicXe.Record

namespace SicXe

/-- Bytes with their addresses, in the order in which they are written. -/
abbrev Image := List (Int × UInt8)

namespace Image

/-- The bytes at consecutive addresses. -/
def stretch (start : Int) (bytes : List UInt8) : Image :=
  bytes.mapIdx fun offset byte => (start + offset, byte)

/-- The bytes of object code from an address on. -/
def ofCode? (start : Int) (code : Text) : Option Image :=
  (bytes? code).map (stretch start)

/-- The images one after the other, if all of them can be read. -/
def join? : List (Option Image) → Option Image
  | [] => some []
  | first :: rest => first.bind fun image => (join? rest).map (image ++ ·)

/-- What a loader reads from a record. -/
def ofRecord? : Record → Option Image
  | .text start code => ofCode? start code
  | _ => some []

def ofRecords? (records : List Record) : Option Image :=
  join? (records.map ofRecord?)

theorem stretchAppend (start : Int) (first second : List UInt8) :
    stretch start (first ++ second) =
      stretch start first ++ stretch (start + first.length) second := by
  rw [stretch, List.mapIdx_append]
  congr 1
  apply congrArg (List.mapIdx · second)
  funext offset byte
  rw [Int.natCast_add, Int.add_assoc, Int.add_comm (offset : Int)]

theorem joinAppend (first second : List (Option Image)) :
    join? (first ++ second) =
      (join? first).bind fun image => (join? second).map (image ++ ·) := by
  induction first with
  | nil =>
    change join? second = (join? second).map fun later => later
    cases join? second <;> rfl
  | cons head rest inductionHypothesis =>
    simp only [List.cons_append, join?, inductionHypothesis]
    cases head with
    | none => rfl
    | some image =>
      cases join? rest with
      | none => rfl
      | some later => cases join? second <;> simp

/-- Joining some of the images beforehand changes nothing. -/
theorem joinJoin (first second : List (Option Image)) :
    join? (join? first :: second) = join? (first ++ second) := by
  rw [joinAppend, join?]

theorem joinNil (images : List (Option Image)) : join? (some [] :: images) = join? images := by
  rw [join?, Option.bind_some]
  cases join? images <;> simp

theorem joinSingleton (image : Option Image) : join? [image] = image := by
  cases image <;> simp [join?]

theorem joinTail (first : Option Image) (rest : List (Option Image)) :
    join? [first, join? rest] = join? (first :: rest) := by
  rw [join?, joinSingleton, join?]

/-- The images can be joined in two halves. -/
theorem joinHalves (first second : List (Option Image)) :
    join? (first ++ second) = join? [join? first, join? second] := by
  rw [joinTail, joinJoin]

theorem joinIsSome {images : List (Option Image)} (all : ∀ image ∈ images, image.isSome = true) :
    (join? images).isSome = true := by
  induction images with
  | nil => rfl
  | cons first rest inductionHypothesis =>
    obtain ⟨image, rfl⟩ := Option.isSome_iff_exists.1 (all first List.mem_cons_self)
    have later := inductionHypothesis fun other inside =>
      all other (List.mem_cons_of_mem _ inside)
    obtain ⟨tail, read⟩ := Option.isSome_iff_exists.1 later
    simp [join?, read]

theorem ofRecordsAppend (first second : List Record) :
    ofRecords? (first ++ second) = join? [ofRecords? first, ofRecords? second] := by
  rw [ofRecords?, List.map_append, joinHalves]
  rfl

theorem ofCodeNil (start : Int) : ofCode? start [] = some [] := rfl

theorem ofCodeIsSome {size : Nat} {code : Text} (isCode : IsCode size code) (start : Int) :
    (ofCode? start code).isSome = true := by
  obtain ⟨bytes, read, _⟩ := isCode.bytes
  rw [ofCode?, read]
  rfl

/-- Code behind code begins where the bytes of the first end. -/
theorem ofCodeAppend {size : Nat} {first : Text} (isCode : IsCode size first) (start : Int)
    (second : Text) :
    ofCode? start (first ++ second) =
      join? [ofCode? start first, ofCode? (start + size) second] := by
  obtain ⟨bytes, read, count⟩ := isCode.bytes
  rw [ofCode?, bytesAppend read, ofCode?, read, ofCode?]
  cases bytes? second with
  | none => rfl
  | some later => simp [join?, stretchAppend, count]

/-- The addresses increase, from the lower bound on and below the upper one. -/
def Fills (image : Image) (low high : Int) : Prop :=
  (image.map Prod.fst).Pairwise (· < ·) ∧
    ∀ address ∈ image.map Prod.fst, low ≤ address ∧ address < high

theorem Fills.nil (low high : Int) : Fills [] low high :=
  ⟨List.Pairwise.nil, by simp⟩

theorem Fills.append {first second : Image} {low middle high : Int}
    (left : Fills first low middle) (right : Fills second middle high)
    (before : low ≤ middle) (after : middle ≤ high) : Fills (first ++ second) low high := by
  refine ⟨?_, ?_⟩
  · rw [List.map_append, List.pairwise_append]
    refine ⟨left.1, right.1, ?_⟩
    intro lower inFirst upper inSecond
    have below := (left.2 lower inFirst).2
    have above := (right.2 upper inSecond).1
    omega
  · intro address inside
    rw [List.map_append] at inside
    rcases List.mem_append.1 inside with inFirst | inSecond
    · have bounds := left.2 address inFirst
      omega
    · have bounds := right.2 address inSecond
      omega

theorem Fills.widen {image : Image} {low high higher : Int} (fills : Fills image low high)
    (above : high ≤ higher) : Fills image low higher := by
  refine ⟨fills.1, ?_⟩
  intro address inside
  have bounds := fills.2 address inside
  omega

theorem Fills.stretch (start : Int) (bytes : List UInt8) :
    Fills (stretch start bytes) start (start + bytes.length) := by
  have addresses : (Image.stretch start bytes).map Prod.fst =
      (List.range bytes.length).map fun offset : Nat => start + offset := by
    apply List.ext_getElem
    · simp [Image.stretch]
    · intro index inFirst inSecond
      simp [Image.stretch]
  rw [Fills, addresses]
  refine ⟨?_, ?_⟩
  · rw [List.pairwise_map]
    apply List.Pairwise.imp _ List.pairwise_lt_range
    intro lower upper less
    omega
  · intro address inside
    obtain ⟨offset, member, rfl⟩ := List.mem_map.1 inside
    have bound := List.mem_range.1 member
    omega

theorem Fills.ofCode {size : Nat} {code : Text} {start : Int} {image : Image}
    (isCode : IsCode size code) (read : ofCode? start code = some image) :
    Fills image start (start + size) := by
  obtain ⟨bytes, readBytes, count⟩ := isCode.bytes
  rw [ofCode?, readBytes] at read
  obtain rfl := Option.some.inj read
  rw [← count]
  exact Fills.stretch start bytes

end Image

end SicXe
