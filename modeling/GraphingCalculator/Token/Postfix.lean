import GraphingCalculator.SyntaxError
import GraphingCalculator.Token.Basic

/-!
# Postfix order

Tokens are brought from infix into postfix order with two stacks.  Operands go
to the output at once; operators, functions and opening parentheses wait until
what they apply to is complete.  Two operands side by side are multiplied, and
a minus before everything else subtracts from zero.
-/

namespace GraphingCalculator
namespace Postfix

/-- The tokens written so far, the latest first; the tokens that wait, the
innermost first; and the kind of the token read last. -/
structure State where
  output : List Token
  pending : List Token
  previous : Option Token.Kind

/-- The state before the first token. -/
def State.initial : State :=
  ⟨[], [], none⟩

/-- Check whether a waiting token is applied before the next operator. -/
def precedes (next : Operator) (waiting : Token) : Bool :=
  match waiting.kind with
  | .operator earlier => earlier.isAppliedBefore next
  | _ => false

/-- Check whether a token is an opening parenthesis. -/
def isOpening (token : Token) : Bool :=
  token.kind = .openParen

namespace State

/-- Write the operators that are applied first, and let the new one wait. -/
def pushOperator (state : State) (operator : Operator) (token : Token) :
    State :=
  let ready := state.pending.takeWhile (precedes operator)
  { state with
    output := ready.reverse ++ state.output
    pending := token :: state.pending.dropWhile (precedes operator) }

/-- Multiply what was read before with the operand that the next token
begins, if an atom stands directly before it. -/
def joinOperands (state : State) (token : Token) : State :=
  if state.previous.any Token.Kind.isAtom && token.kind.beginsOperand then
    state.pushOperator .times (.impliedProduct token.position)
  else state

/-- Give a minus that stands before everything else a zero to subtract
from. -/
def startWithZero (state : State) (operator : Operator) (token : Token) :
    State :=
  if operator = .minus && state.output.isEmpty && state.pending.isEmpty then
    { state with output := [.impliedZero token.position] }
  else state

/-- Write what waits inside the innermost open parenthesis, and after it the
function that the parenthesis belongs to. -/
def closeParenthesis (state : State) (token : Token) :
    Except SyntaxError State :=
  let inside := state.pending.takeWhile fun waiting => !isOpening waiting
  let output := inside.reverse ++ state.output
  match state.pending.dropWhile fun waiting => !isOpening waiting with
  | [] => .error ⟨.unmatchedClosing, token.position⟩
  | [_] => .ok { state with output := output, pending := [] }
  | _ :: caller :: outer =>
      if caller.kind = .function then
        .ok { state with output := caller :: output, pending := outer }
      else .ok { state with output := output, pending := caller :: outer }

/-- Read one token. -/
def read (state : State) (token : Token) : Except SyntaxError State :=
  let joined :=
    { state.joinOperands token with previous := some token.kind }
  match token.kind with
  | .number | .freeVariable | .constant =>
      .ok { joined with output := token :: joined.output }
  | .function | .openParen =>
      .ok { joined with pending := token :: joined.pending }
  | .operator operator =>
      .ok ((joined.startWithZero operator token).pushOperator operator token)
  | .closeParen => joined.closeParenthesis token

/-- Write everything that still waits after the last token. -/
def finish (state : State) : Except SyntaxError (List Token) :=
  match state.pending.find? isOpening with
  | some opening => .error ⟨.unclosed, opening.position⟩
  | none => .ok (state.output.reverse ++ state.pending)

end State
end Postfix

/-- Bring tokens from infix into postfix order. -/
def Token.toPostfix (tokens : List Token) :
    Except SyntaxError (List Token) := do
  let state ← tokens.foldlM Postfix.State.read Postfix.State.initial
  state.finish

end GraphingCalculator
