import GraphingCalculator.Text.Basic
import GraphingCalculator.Text.Unprintable

/-!
# Quoted text

A quoted text stands between double quotes.  Quotes and backslashes are marked
by a backslash, the usual controls have their short forms, and every other
character without a glyph of its own is spelled by its code point.
-/

namespace GraphingCalculator
namespace Text

/-- The hexadecimal code point of a character, in braces. -/
def codePointEscape (character : Char) : Text :=
  "\\u\x7b".toList ++ Nat.toDigits 16 character.toNat ++ ['\x7d']

/-- The form that a character takes inside a quoted text. -/
def quotedCharacter (character : Char) : Text :=
  if character = '\x22' then ['\\', character]
  else if character = '\\' then ['\\', character]
  else if character = '\n' then ['\\', 'n']
  else if character = '\r' then ['\\', 'r']
  else if character = '\t' then ['\\', 't']
  else if character = '\x00' then ['\\', '0']
  else if unprintableCharacters.contains character then
    codePointEscape character
  else [character]

/-- The text between double quotes. -/
def quoted (text : Text) : Text :=
  '\x22' :: text.flatMap quotedCharacter ++ ['\x22']

end Text
end GraphingCalculator
