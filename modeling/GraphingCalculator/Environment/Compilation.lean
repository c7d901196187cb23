import GraphingCalculator.Environment.Basic
import GraphingCalculator.Expression.Building
import GraphingCalculator.Source.Tokens
import GraphingCalculator.Token.Adjacency
import GraphingCalculator.Token.Postfix

/-!
# Compiling a source

A source is split into tokens, the tokens are checked and brought into postfix
order, and an expression is built from them.
-/

namespace GraphingCalculator
namespace Environment

/-- Split a source into tokens, with the names of the environment. -/
def tokenize (environment : Environment) (source : Text) :
    Except SyntaxError (List Token) :=
  Source.tokenize environment.classify source

/-- Refuse more tokens than the limit, and blame the first one too many. -/
def checkLength (limits : Limits) (tokens : List Token) :
    Except SyntaxError Unit :=
  match tokens[limits.expressionLength]? with
  | some token => .error ⟨.tooLong, token.position⟩
  | none => .ok ()

/-- Compile a source. -/
def compile (environment : Environment) (source : Text) :
    Except SyntaxError Formula := do
  let tokens ← environment.tokenize source
  checkLength environment.limits tokens
  Token.checkAdjacency tokens
  let ordered ← Token.toPostfix tokens
  let expression ←
    Expression.ofPostfix environment.limits.expressionDepth ordered
  return ⟨source, expression⟩

end Environment
end GraphingCalculator
