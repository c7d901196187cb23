import GraphingCalculator.Source.Check
import GraphingCalculator.Source.Segment

/-!
# Tokens of a source

The tokens of a source are its segments without the blanks.  An identifier
becomes a constant or a function, as the names in use say; one that is not in
use is an error, like every mistake, and the first error from the left wins.
-/

namespace GraphingCalculator
namespace Source

/-- Turn located segments into tokens. -/
def readTokens (classify : Text → Option Token.Kind) :
    List (Nat × Segment) → Except SyntaxError (List Token)
  | [] => .ok []
  | (position, segment) :: rest =>
      match segment.reading with
      | .blank => readTokens classify rest
      | .token kind => do
          let tokens ← readTokens classify rest
          return ⟨kind, segment.text, position⟩ :: tokens
      | .identifier =>
          match classify segment.text with
          | some kind => do
              let tokens ← readTokens classify rest
              return ⟨kind, segment.text, position⟩ :: tokens
          | none => .error ⟨.unknownIdentifier segment.text, position⟩
      | .mistake cause offset => .error ⟨cause, position + offset⟩

/-- Split a source into tokens.  A source that holds an equals sign is a
definition, and not an expression. -/
def tokenize (classify : Text → Option Token.Kind) (source : Text) :
    Except SyntaxError (List Token) :=
  match Text.splitAtFirst? '=' source with
  | some (before, _) => .error ⟨.containsEquals, Text.byteSize before⟩
  | none => do
      check source
      readTokens classify (locate 0 (segments source))

end Source
end GraphingCalculator
