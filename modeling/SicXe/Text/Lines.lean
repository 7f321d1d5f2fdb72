/-
This file cuts texts into lines.
-/

import SicXe.Text.Ranges

namespace SicXe.Text

/-- The line ends: feeds, returns, the file, group and record separators, and the two of
running text. -/
def lineBreaks : List Range :=
  [⟨0xA, 0xD⟩, ⟨0x1C, 0x1E⟩, ⟨0x85, 0x85⟩, ⟨0x2028, 0x2029⟩]

def isLineBreak (char : Char) : Bool :=
  inRanges lineBreaks char

/-- A return followed by a feed ends one line, and the last line may lack its end. -/
def lines : Text → List Text
  | [] => []
  | '\r' :: '\n' :: rest => [] :: lines rest
  | char :: rest =>
    if isLineBreak char then [] :: lines rest
    else match lines rest with
      | [] => [[char]]
      | line :: later => (char :: line) :: later

/-- Every return, alone or before a feed, becomes one feed. -/
def unifyLineEnds : Text → Text
  | [] => []
  | '\r' :: '\n' :: rest => '\n' :: unifyLineEnds rest
  | '\r' :: rest => '\n' :: unifyLineEnds rest
  | char :: rest => char :: unifyLineEnds rest

/-- The line without the returns and feeds that end it. -/
def dropLineEnd (line : Text) : Text :=
  trimEnd (fun char => char == '\r' || char == '\n') line

/-- Each line is followed by a feed. -/
def unlines (lines : List Text) : Text :=
  lines.flatMap (· ++ ['\n'])

end SicXe.Text
