/-!
# Characters of texts

A text is counted and indexed by characters.  `Text.character?` walks to a
place without listing the characters before it; by `character?_eq_getElem?` it
finds what stands at that place of the list.

Properties of characters are given as lists of ranges of code points in increasing
order.  Blanks, which `Text.trim` removes from both ends of a text, are the
characters with the Unicode property `White_Space`.
-/

namespace TreeScript.Text

/-! ## Sequences of characters -/

/-- The characters of a text as texts of their own. -/
def characters (text : String) : List String :=
  text.toList.map fun character => String.ofList [character]

/-- The character at a place of a text. -/
def character? (text : String) (place : Nat) : Option Char :=
  let position := text.startPos.nextn place
  if inside : position ≠ text.endPos then some (position.get inside) else none

theorem character?_eq_getElem? (text : String) (place : Nat) :
    character? text place = text.toList[place]? := by
  have parts := String.splits_nextn_startPos text place
  unfold character?
  generalize text.startPos.nextn place = position at parts
  rw [← List.head?_drop]
  by_cases inside : position ≠ text.endPos
  · have rest := congrArg String.toList
      (parts.eq_right (String.Pos.splits_next_right position inside))
    have head : text.toList.drop place =
        position.get inside :: (text.sliceFrom (position.next inside)).copy.toList := by
      simpa using rest
    simp [inside, head]
  · have ended : position = text.endPos := Classical.not_not.1 inside
    subst ended
    have rest := congrArg String.toList (parts.eq_right (String.splits_endPos text))
    have nothing : text.toList.drop place = [] := by
      simpa using rest
    simp [nothing]

/-! ## Ranges of code points -/

/-- The code points from `first` to `last`. -/
structure Range where
  first : Nat
  last : Nat

/-- Whether a range holds a code point. -/
def Range.contains (range : Range) (point : Nat) : Bool :=
  range.first ≤ point && point ≤ range.last

/-- Whether a character lies in one of the ranges. -/
def inRanges (ranges : List Range) (character : Char) : Bool :=
  ranges.any fun range => range.contains character.toNat

/-! ## Blanks -/

/-- The property `White_Space`. -/
def blankRanges : List Range := [
    ⟨0x9, 0xD⟩, ⟨0x20, 0x20⟩, ⟨0x85, 0x85⟩, ⟨0xA0, 0xA0⟩, ⟨0x1680, 0x1680⟩, ⟨0x2000, 0x200A⟩,
    ⟨0x2028, 0x2029⟩, ⟨0x202F, 0x202F⟩, ⟨0x205F, 0x205F⟩, ⟨0x3000, 0x3000⟩]

/-- Whether a character is white space. -/
def isBlank (character : Char) : Bool :=
  inRanges blankRanges character

/-- A text without the white space at its ends. -/
def trim (text : String) : String :=
  let withoutStart := text.toList.dropWhile isBlank
  String.ofList (withoutStart.reverse.dropWhile isBlank).reverse

end TreeScript.Text
