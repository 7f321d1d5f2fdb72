/-
This file holds the blank characters, which separate fields and pad them.
-/

import SicXe.Text.Ranges

namespace SicXe.Text

/-- The tabs, line ends, file separators and spaces of every width. -/
def blanks : List Range :=
  [⟨0x9, 0xD⟩, ⟨0x1C, 0x20⟩, ⟨0x85, 0x85⟩, ⟨0xA0, 0xA0⟩, ⟨0x1680, 0x1680⟩, ⟨0x2000, 0x200A⟩,
   ⟨0x2028, 0x2029⟩, ⟨0x202F, 0x202F⟩, ⟨0x205F, 0x205F⟩, ⟨0x3000, 0x3000⟩]

def isBlank (char : Char) : Bool :=
  inRanges blanks char

/-- The text without the blanks at its two ends. -/
def strip (text : Text) : Text :=
  trim isBlank text

/-- The pieces between runs of blanks. -/
def words (text : Text) : List Text :=
  (List.splitOnP isBlank text).filter (!·.isEmpty)

end SicXe.Text
