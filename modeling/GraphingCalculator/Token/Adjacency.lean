import GraphingCalculator.SyntaxError
import GraphingCalculator.Token.Basic

/-!
# Checks on neighbouring tokens

A sequence of tokens is checked pair by pair, and then at its two ends.  An
atom directly before another operand is accepted, since the two are multiplied;
only two numbers may not stand side by side.
-/

namespace GraphingCalculator
namespace Token

/-- Why a token of the second kind cannot stand directly after one of the
first kind. -/
def pairFault? : Kind → Kind → Option SyntaxCause
  | .operator _, .operator _ => some .consecutiveOperators
  | .number, .number => some .adjacentNumbers
  | .function, next =>
      if next = .openParen then none else some .functionWithoutParenthesis
  | .openParen, .closeParen => some .emptyParentheses
  | .openParen, .operator _ => some .operatorAfterOpening
  | .closeParen, next =>
      if next.beginsOperand then some .operandAfterClosing else none
  | _, _ => none

/-- Check every pair of neighbours, and blame the second one. -/
def checkPairs : List Token → Except SyntaxError Unit
  | first :: second :: rest =>
      match pairFault? first.kind second.kind with
      | some cause => .error ⟨cause, second.position⟩
      | none => checkPairs (second :: rest)
  | _ => .ok ()

/-- Check the two ends of a sequence.  It may start with a minus, but with no
other operator. -/
def checkEnds (first last : Token) : Except SyntaxError Unit :=
  if first.kind.isOperator && first.text != [Operator.minus.toChar] then
    .error ⟨.leadingOperator, first.position⟩
  else if last.kind.isOperator then .error ⟨.finalOperator, last.position⟩
  else .ok ()

/-- Check a sequence of tokens. -/
def checkAdjacency (tokens : List Token) : Except SyntaxError Unit :=
  match tokens.head?, tokens.getLast? with
  | some first, some last => do
      checkPairs tokens
      checkEnds first last
  | _, _ => .error ⟨.noTokens, 0⟩

end Token
end GraphingCalculator
