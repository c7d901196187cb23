import GraphingCalculator.DefinitionError
import GraphingCalculator.Text.Blank
import GraphingCalculator.Text.Lowercase

/-!
# Splitting a definition

A definition `name = expression` is split at its first equals sign.  At most one
space may stand before that sign, and none inside the name; blanks elsewhere are
trimmed.  The name is made lowercase.
-/

namespace GraphingCalculator

/-- The parts of a definition.  The offset is the byte position of the
expression in the text. -/
structure SplitDefinition where
  name : Text
  offset : Nat
  expression : Text
  deriving DecidableEq

namespace SplitDefinition

/-- Take the trailing ordinary spaces off a text. -/
def trimSpacesEnd (text : Text) : Text :=
  (text.reverse.dropWhile (· = ' ')).reverse

/-- The name on the left of an equals sign. -/
def nameOf (left : Text) : Except DefinitionError Text :=
  let core := trimSpacesEnd left
  let name := Text.trimStart core
  if core.length + 1 < left.length then
    .error (.malformed .severalBeforeEquals (Text.byteSize core + 1))
  else if name.any isBlank then
    .error (.malformed .insideName
      (Text.byteSize (core.takeWhile isBlank) +
        Text.byteSize (name.takeWhile fun character => !isBlank character)))
  else if name.isEmpty then .error .emptyName
  else .ok (Text.lowercase name)

/-- Split a definition into its parts. -/
def ofText (text : Text) : Except DefinitionError SplitDefinition :=
  match Text.splitAtFirst? '=' text with
  | none => .error .missingEquals
  | some (left, right) => do
      let name ← nameOf left
      return {
        name
        offset := Text.byteSize left + '='.utf8Size +
          Text.byteSize (right.takeWhile isBlank)
        expression := Text.trim right }

end SplitDefinition
end GraphingCalculator
