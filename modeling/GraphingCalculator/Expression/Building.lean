import GraphingCalculator.Decimal.Numeral
import GraphingCalculator.Expression.Folding
import GraphingCalculator.SyntaxError
import GraphingCalculator.Token.Basic

/-!
# Expressions from postfix tokens

Postfix tokens are read from the last to the first: an operator is found before
its right operand, and that before its left one.  Applications of functions may
be nested to a given depth only; operators do not count.
-/

namespace GraphingCalculator
namespace Expression

/-- The constant with a name. -/
def ofConstantName (name : Text) : Expression :=
  match BuiltinConstant.ofName? name with
  | some builtin => value builtin.value
  | none => constant name

/-- The application of the function with a name. -/
def ofFunctionName (name : Text) (argument : Expression) : Expression :=
  if name = derivativeName then derivative argument
  else
    match BuiltinFunction.ofName? name with
    | some builtin => apply builtin argument
    | none => call name argument

/-- Read one operand from postfix tokens that are given last first, and return
it with the tokens before it.  An operand that is missing is blamed on the
token that it belongs to. -/
def build (maxDepth depth position : Nat) (reversed : List Token) :
    Except SyntaxError
      (Expression × { rest : List Token // rest.length < reversed.length }) :=
  if maxDepth < depth then .error ⟨.tooDeep, position⟩
  else
    match reversed with
    | [] => .error ⟨.missingOperand, position⟩
    | token :: rest =>
        let leaf (expression : Expression) :
            Except SyntaxError (Expression ×
              { after : List Token //
                after.length < (token :: rest).length }) :=
          .ok (expression, ⟨rest, by simp⟩)
        match token.kind with
        | .number =>
            match Numeral.read? token.text with
            | some number => leaf (value number)
            | none => .error ⟨.invalidNumber, token.position⟩
        | .freeVariable => leaf freeVariable
        | .constant => leaf (ofConstantName token.text)
        | .operator operator => do
            let (right, ⟨beforeRight, _⟩) ←
              build maxDepth depth token.position rest
            let (left, ⟨beforeLeft, _⟩) ←
              build maxDepth depth token.position beforeRight
            return (binary operator left right,
              ⟨beforeLeft, by simp only [List.length_cons]; omega⟩)
        | .function => do
            let (argument, ⟨beforeArgument, _⟩) ←
              build maxDepth (depth + 1) token.position rest
            return (ofFunctionName token.text argument,
              ⟨beforeArgument, by simp only [List.length_cons]; omega⟩)
        | .openParen | .closeParen =>
            .error ⟨.leftoverParenthesis, token.position⟩
termination_by reversed.length

/-- The folded expression that postfix tokens stand for. -/
def ofPostfix (maxDepth : Nat) (tokens : List Token) :
    Except SyntaxError Expression := do
  let reversed := tokens.reverse
  let position := (reversed.head?.map Token.position).getD 0
  let (expression, ⟨leftover, _⟩) ← build maxDepth 0 position reversed
  match leftover with
  | [] => return expression.fold
  | extra :: _ => throw ⟨.leftoverOperand, extra.position⟩

end Expression
end GraphingCalculator
