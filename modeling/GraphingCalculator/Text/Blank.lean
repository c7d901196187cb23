import GraphingCalculator.Text.Basic
import GraphingCalculator.Text.CharacterSet

/-!
# Blanks

White space is the Unicode property `White_Space`: twenty-five characters, of
which the ordinary space, the tab and the line breaks are six.  Trimming takes
blanks away from the ends of a text.
-/

namespace GraphingCalculator

/-- The characters with the Unicode property `White_Space`. -/
def blankCharacters : CharacterSet :=
  [(0x0009, 0x000D), (0x0020, 0x0020), (0x0085, 0x0085), (0x00A0, 0x00A0),
    (0x1680, 0x1680), (0x2000, 0x200A), (0x2028, 0x2029), (0x202F, 0x202F),
    (0x205F, 0x205F), (0x3000, 0x3000)]

/-- Check whether a character is white space. -/
def isBlank (character : Char) : Bool :=
  blankCharacters.contains character

theorem isBlank_of_isWhitespace {character : Char}
    (white : character.isWhitespace = true) : isBlank character = true := by
  simp only [Char.isWhitespace, Bool.or_eq_true, decide_eq_true_eq] at white
  obtain ((rfl | rfl) | rfl) | rfl := white <;> rfl

namespace Text

/-- The text without its leading blanks. -/
def trimStart (text : Text) : Text :=
  text.dropWhile isBlank

/-- The text without its trailing blanks. -/
def trimEnd (text : Text) : Text :=
  (text.reverse.dropWhile isBlank).reverse

/-- The text without blanks at either end. -/
def trim (text : Text) : Text :=
  trimEnd (trimStart text)

theorem takeWhile_append_trimStart (text : Text) :
    text.takeWhile isBlank ++ trimStart text = text :=
  List.takeWhile_append_dropWhile

theorem byteSize_trimStart_le (text : Text) :
    byteSize (trimStart text) ≤ byteSize text := by
  have split := congrArg byteSize (takeWhile_append_trimStart text)
  rw [byteSize_append] at split
  omega

end Text
end GraphingCalculator
