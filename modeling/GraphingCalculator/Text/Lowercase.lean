import GraphingCalculator.Text.Basic
import GraphingCalculator.Text.LetterCase

/-!
# Lowercase text

The full Unicode change to lowercase.  Every character is changed by itself,
with two exceptions: the dotted capital I becomes two characters, and a
capital sigma becomes the final form of the letter when it closes a word.
-/

namespace GraphingCalculator
namespace Text

/-- The lowercase form of a single character, without regard to its
surroundings. -/
def lowercaseCharacter (character : Char) : Text :=
  if character = '\u0130' then ['i', '\u0307']
  else
    match letterRanges.findSome? (·.lowercase? character) with
    | some lower => [lower]
    | none => [character]

/-- Check whether the first character that is not passed over has a case. -/
def startsCased (text : Text) : Bool :=
  match text.dropWhile caseIgnorableCharacters.contains with
  | [] => false
  | character :: _ => casedCharacters.contains character

/-- The lowercase form of a text that follows the characters of
`precedingReversed`, the nearest one first. -/
def lowercaseAfter (precedingReversed : Text) : Text → Text
  | [] => []
  | character :: rest =>
      let changed :=
        if character = 'Σ' then
          if startsCased precedingReversed && !startsCased rest then ['ς']
          else ['σ']
        else lowercaseCharacter character
      changed ++ lowercaseAfter (character :: precedingReversed) rest

/-- The lowercase form of a text. -/
def lowercase (text : Text) : Text :=
  lowercaseAfter [] text

end Text
end GraphingCalculator
