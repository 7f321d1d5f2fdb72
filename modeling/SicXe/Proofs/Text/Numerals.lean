/-
This file says which texts are numerals. The digits of a numeral may come from every script and may
have underscores between them; a plain numeral has neither, and its value is that of its digits.
-/

import SicXe.AddressExpression
import SicXe.Proofs.Text.Pieces

namespace SicXe

open Numeral

namespace Text

/-- Blanks are below the written characters of the first code page, or beyond that page. -/
theorem blankRange {char : Char} (blank : isBlank char = true) :
    char.toNat ≤ 0x20 ∨ 0x7F < char.toNat := by
  obtain ⟨range, member, low, high⟩ := (inRangesIff _ _).1 blank
  have outside : ∀ range ∈ blanks, range.last ≤ 0x20 ∨ 0x7F < range.first := by decide
  have := outside range member
  omega

/-- The digits of each script, and the lone digits. -/
def digitRanges : List Range :=
  zeros.map (fun origin => ⟨origin, origin + 9⟩) ++ loneDigits

theorem rangeOfDigit {char : Char} (digit : isDigit char = true) :
    ∃ range ∈ digitRanges, range.first ≤ char.toNat ∧ char.toNat ≤ range.last := by
  rcases Bool.or_eq_true_iff.1 digit with decimal | lone
  · obtain ⟨value, found⟩ := Option.isSome_iff_exists.1 decimal
    obtain ⟨origin, isOrigin, _⟩ := Option.map_eq_some_iff.1 found
    have within := List.find?_some isOrigin
    simp only [Bool.and_eq_true, decide_eq_true_eq] at within
    have member := List.mem_of_find?_eq_some isOrigin
    exact ⟨⟨origin, origin + 9⟩, List.mem_append_left _ (List.mem_map_of_mem member), within⟩
  · obtain ⟨range, member, within⟩ := (inRangesIff _ _).1 lone
    exact ⟨range, List.mem_append_right _ member, within⟩

theorem digitNotBlank {char : Char} (digit : isDigit char = true) : isBlank char = false := by
  obtain ⟨digits, isDigits, least, most⟩ := rangeOfDigit digit
  have apart : ∀ digits ∈ digitRanges, ∀ range ∈ blanks,
      digits.last < range.first ∨ range.last < digits.first := by decide
  rw [← Bool.not_eq_true]
  intro blank
  obtain ⟨range, isRange, low, high⟩ := (inRangesIff _ _).1 blank
  have := apart digits isDigits range isRange
  omega

theorem isDigitOfDecimal {char : Char} (digit : isDecimalDigit char = true) :
    isDigit char = true :=
  Bool.or_eq_true_iff.2 (.inl digit)

theorem asciiRange {char : Char} :
    Decimal.isAsciiDigit char = true ↔ 0x30 ≤ char.toNat ∧ char.toNat ≤ 0x39 := by
  rw [Decimal.isAsciiDigit, Bool.and_eq_true, decide_eq_true_eq, decide_eq_true_eq]
  exact Iff.rfl

/-- The only digits of the first code page are `0` to `9`. -/
theorem asciiOfDigit {char : Char} (digit : isDigit char = true) (small : char.toNat ≤ 0x7F) :
    Decimal.isAsciiDigit char = true := by
  obtain ⟨range, member, least, most⟩ := rangeOfDigit digit
  have beyond : ∀ range ∈ digitRanges,
      range.first = 0x30 ∧ range.last = 0x39 ∨ 0x7F < range.first := by decide
  have := beyond range member
  rw [asciiRange]
  omega

theorem digitValueOfAscii {char : Char} (digit : Decimal.isAsciiDigit char = true) :
    digitValue? char = some (char.toNat - 0x30) := by
  obtain ⟨least, most⟩ := asciiRange.1 digit
  have found : zeros.find? (fun origin => origin ≤ char.toNat && char.toNat ≤ origin + 9) =
      some 0x30 := by
    rw [zeros, List.find?_cons_of_pos]
    simp [least, most]
  rw [digitValue?, found]
  rfl

theorem isDigitOfAscii {char : Char} (digit : Decimal.isAsciiDigit char = true) :
    isDigit char = true := by
  rw [isDigit, isDecimalDigit, digitValueOfAscii digit]
  rfl

end Text

namespace Numeral

/-- Digits, and perhaps underscores between them. -/
structure IsDigitText (digit? : Char → Option Nat) (body : Text) : Prop where
  nonempty : body ≠ []
  inside : ∀ char ∈ body, char = '_' ∨ (digit? char).isSome = true
  first : ∀ char ∈ body.head?, (digit? char).isSome = true
  last : ∀ char ∈ body.getLast?, (digit? char).isSome = true

theorem IsDigitText.cons {digit? : Char → Option Nat} {char : Char} {digit : Nat}
    {rest : Text} (between : Text) (found : digit? char = some digit)
    (joined : ∀ mark ∈ between, mark = '_') (later : IsDigitText digit? rest) :
    IsDigitText digit? (char :: (between ++ rest)) where
  nonempty := List.cons_ne_nil _ _
  inside other held := by
    rcases List.mem_cons.1 held with rfl | behind
    · simp [found]
    · rcases List.mem_append.1 behind with mark | deeper
      · exact .inl (joined other mark)
      · exact later.inside other deeper
  first := by simp [found]
  last := by
    have same : (char :: (between ++ rest)).getLast? = rest.getLast? := by
      rw [← List.cons_append, List.getLast?_append,
        Option.or_of_isSome (List.getLast?_isSome.2 later.nonempty)]
    rw [same]
    exact later.last

theorem isDigitTextOfRead {digit? : Char → Option Nat} {body : Text} {digits : List Nat}
    (read : readDigits? digit? body = some digits) : IsDigitText digit? body := by
  fun_induction readDigits? digit? body generalizing digits with
  | case1 => contradiction
  | case2 char =>
    obtain ⟨digit, found, _⟩ := Option.map_eq_some_iff.1 read
    constructor <;> simp [found]
  | case3 char rest digit later readRest found inductionHypothesis =>
    exact .cons ['_'] found (by simp) (inductionHypothesis readRest)
  | case4 => contradiction
  | case5 char rest single separated digit later readRest found inductionHypothesis =>
    exact .cons [] found (by simp) (inductionHypothesis readRest)
  | case6 => contradiction

/-- Without underscores each character is a digit of its own. -/
theorem readDigitsEach {digit? : Char → Option Nat} {value : Char → Nat} {body : Text}
    (nonempty : body ≠ []) (each : ∀ char ∈ body, digit? char = some (value char))
    (joined : '_' ∉ body) : readDigits? digit? body = some (body.map value) := by
  fun_induction readDigits? digit? body with
  | case1 => contradiction
  | case2 char => simp [each char List.mem_cons_self]
  | case3 => simp at joined
  | case4 => simp at joined
  | case5 char rest single separated digit later readRest found inductionHypothesis =>
    have same := inductionHypothesis single
      (fun other held => each other (List.mem_cons_of_mem _ held))
      (mt (List.mem_cons_of_mem _) joined)
    rw [each char List.mem_cons_self] at found
    rw [readRest] at same
    rw [Option.some.inj same, ← Option.some.inj found, List.map_cons]
  | case6 char rest single separated unread inductionHypothesis =>
    have same := inductionHypothesis single
      (fun other held => each other (List.mem_cons_of_mem _ held))
      (mt (List.mem_cons_of_mem _) joined)
    exact absurd same (unread _ _ (each char List.mem_cons_self))

theorem splitSignShape (text : Text) :
    ∃ mark, text = mark ++ (splitSign text).2 ∧ (mark = [] ∨ mark = ['-'] ∨ mark = ['+']) := by
  unfold splitSign
  split
  · exact ⟨['-'], rfl, .inr (.inl rfl)⟩
  · exact ⟨['+'], rfl, .inr (.inr rfl)⟩
  · exact ⟨[], rfl, .inl rfl⟩

namespace Decimal

/-- The digits `0` to `9`, one of them at least. -/
def IsPlainDigits (digits : Text) : Prop :=
  digits ≠ [] ∧ ∀ char ∈ digits, isAsciiDigit char = true

/-- The value of a sequence of the digits `0` to `9`. -/
def plainValue (digits : Text) : Nat :=
  ofDigits 10 (digits.map fun char => char.toNat - 0x30)

def signed (negative : Bool) (digits : Text) : Text :=
  if negative then '-' :: digits else digits

variable {negative : Bool} {digits : Text}

theorem plainIff {text : Text} :
    isPlain text = true ↔
      ∃ negative digits, IsPlainDigits digits ∧ text = signed negative digits := by
  have each (digits : Text) :
      (!digits.isEmpty && digits.all isAsciiDigit) = true ↔ IsPlainDigits digits := by
    simp [IsPlainDigits]
  constructor
  · intro plain
    unfold isPlain at plain
    split at plain
    · next digits => exact ⟨true, digits, (each digits).1 plain, rfl⟩
    · exact ⟨false, text, (each text).1 plain, rfl⟩
  · rintro ⟨negative, digits, plain, rfl⟩
    cases negative with
    | true => exact (each digits).2 plain
    | false =>
      unfold isPlain
      split
      · next rest same =>
        have unsigned := plain.2 '-' (by rw [show digits = '-' :: rest from same]; simp)
        contradiction
      · exact (each digits).2 plain

theorem splitSigned (plain : IsPlainDigits digits) :
    splitSign (signed negative digits) = (negative, digits) := by
  cases negative with
  | true => rfl
  | false =>
    have unmarked (mark : Char) (other : isAsciiDigit mark = false) (rest : Text) :
        digits ≠ mark :: rest := by
      rintro rfl
      rw [plain.2 mark List.mem_cons_self] at other
      contradiction
    unfold splitSign
    split
    · next rest same => exact absurd same (unmarked '-' (by decide) rest)
    · next rest same => exact absurd same (unmarked '+' (by decide) rest)
    · rfl

theorem memSigned (plain : IsPlainDigits digits) {char : Char}
    (inside : char ∈ signed negative digits) : char = '-' ∨ isAsciiDigit char = true := by
  cases negative with
  | true => exact (List.mem_cons.1 inside).imp_right (plain.2 char)
  | false => exact .inr (plain.2 char inside)

theorem solidSigned (plain : IsPlainDigits digits) {char : Char}
    (inside : char ∈ signed negative digits) : Text.isBlank char = false := by
  rcases memSigned plain inside with rfl | digit
  · decide
  · exact Text.digitNotBlank (Text.isDigitOfAscii digit)

/-- A plain numeral is read digit by digit unless it is too long. -/
theorem readSigned (plain : IsPlainDigits digits) :
    read? (signed negative digits) =
      if digits.length ≤ maxDigits then some (applySign negative (plainValue digits))
      else none := by
  have padding {char : Char} (inside : char ∈ signed negative digits) :
      isPadding char = false := by
    rw [isPadding, solidSigned plain inside, Bool.false_and]
  have trimmed : Text.trim isPadding (signed negative digits) = signed negative digits :=
    Text.trimSolid (fun _ first => padding (List.mem_of_head? first))
      fun _ last => padding (List.mem_of_getLast? last)
  have each := readDigitsEach plain.1
    (fun char inside => Text.digitValueOfAscii (plain.2 char inside)) fun inside => by
      have := plain.2 '_' inside
      contradiction
  simp only [read?, trimmed, splitSigned plain, each, List.length_map]
  rfl

/-- Without its padding a numeral is a digit sequence of bounded length, behind a sign or not. -/
theorem shapeOfRead {text : Text} {value : Int} (read : read? text = some value) :
    ∃ mark body digits, Text.trim isPadding text = mark ++ body ∧
      (mark = [] ∨ mark = ['-'] ∨ mark = ['+']) ∧
        readDigits? Text.digitValue? body = some digits ∧ digits.length ≤ maxDigits := by
  obtain ⟨mark, marked, marks⟩ := splitSignShape (Text.trim isPadding text)
  simp only [read?] at read
  split at read
  · contradiction
  · next digits readBody =>
    split at read
    · next short => exact ⟨mark, _, digits, marked, marks, readBody, short⟩
    · contradiction

/-- All blanks around a numeral are padding. -/
theorem stripEqTrim {text : Text} {value : Int} (read : read? text = some value) :
    Text.strip text = Text.trim isPadding text := by
  obtain ⟨mark, body, digits, marked, marks, readBody, _⟩ := shapeOfRead read
  obtain ⟨front, back, shape, before, after⟩ := Text.trimParts isPadding text
  have isDigits := isDigitTextOfRead readBody
  have blank {char : Char} (padding : isPadding char = true) : Text.isBlank char = true :=
    (Bool.and_eq_true_iff.1 padding).1
  have solid : Text.strip (Text.trim isPadding text) = Text.trim isPadding text := by
    rw [marked]
    apply Text.trimSolid
    · intro char first
      rcases marks with rfl | rfl | rfl
      · exact Text.digitNotBlank (Text.isDigitOfDecimal (isDigits.first char first))
      · exact Option.some.inj first ▸ by decide
      · exact Option.some.inj first ▸ by decide
    · intro char last
      rw [List.getLast?_append,
        Option.or_of_isSome (List.getLast?_isSome.2 isDigits.nonempty)] at last
      exact Text.digitNotBlank (Text.isDigitOfDecimal (isDigits.last char last))
  calc Text.strip text
    _ = Text.strip (front ++ (Text.trim isPadding text ++ back)) := congrArg Text.strip shape
    _ = Text.strip (Text.trim isPadding text) :=
      Text.stripAround (fun char held => blank (before char held))
        (fun char held => blank (after char held)) _
    _ = Text.trim isPadding text := solid

theorem readStrip {text : Text} {value : Int} (read : read? text = some value) :
    read? (Text.strip text) = some value := by
  rw [stripEqTrim read, ← read, read?, read?, Text.trimTrim]

/-- A numeral is plain between its blanks if it has none of the characters that only other numerals
have. -/
theorem plainStripIff {text : Text} {value : Int} (read : read? text = some value) :
    isPlain (Text.strip text) = true ↔
      (∀ char ∈ text, Text.isDecimalDigit char = true → isAsciiDigit char = true) ∧
        '_' ∉ text ∧ '+' ∉ text := by
  constructor
  · intro isPlain
    obtain ⟨negative, digits, plain, shape⟩ := plainIff.1 isPlain
    have written {char : Char} (inside : char ∈ text) (solid : Text.isBlank char = false) :
        char = '-' ∨ isAsciiDigit char = true :=
      memSigned plain (shape ▸ Text.memStrip inside solid)
    refine ⟨fun char inside digit => ?_, fun inside => ?_, fun inside => ?_⟩
    · rcases written inside (Text.digitNotBlank (Text.isDigitOfDecimal digit)) with rfl | ascii
      · contradiction
      · exact ascii
    · have := written inside (by decide)
      contradiction
    · have := written inside (by decide)
      contradiction
  · rintro ⟨ascii, joined, unsigned⟩
    obtain ⟨mark, body, digits, marked, marks, readBody, _⟩ := shapeOfRead read
    rw [← stripEqTrim read] at marked
    have isDigits := isDigitTextOfRead readBody
    have inner {char : Char} (inside : char ∈ mark ++ body) : char ∈ text :=
      (Text.stripSublist text).subset (marked ▸ inside)
    have plain : IsPlainDigits body := by
      refine ⟨isDigits.nonempty, fun char inside => ?_⟩
      have held := inner (List.mem_append_right mark inside)
      rcases isDigits.inside char inside with rfl | digit
      · exact absurd held joined
      · exact ascii char held digit
    rw [marked, plainIff]
    rcases marks with rfl | rfl | rfl
    · exact ⟨false, body, plain, rfl⟩
    · exact ⟨true, body, plain, rfl⟩
    · exact absurd (inner List.mem_cons_self) unsigned

end Decimal

end Numeral

end SicXe
