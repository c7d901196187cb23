import GraphingCalculator.Operator
import GraphingCalculator.SyntaxError
import GraphingCalculator.Text.Blank

/-!
# Checks on the characters of a source

Before a source is split, its characters are checked: it is not blank, its
parentheses are balanced, no operator but a minus stands directly after
another operator, and no operator closes it.
-/

namespace GraphingCalculator
namespace Source

/-- Match parentheses from left to right.  The stack holds the positions of
those that are open, the innermost one first. -/
def checkParentheses (position : Nat) (opened : List Nat) :
    Text → Except SyntaxError Unit
  | [] =>
      match opened with
      | [] => .ok ()
      | innermost :: _ => .error ⟨.unclosed, innermost⟩
  | character :: rest =>
      let next := position + character.utf8Size
      if character = '(' then checkParentheses next (position :: opened) rest
      else if character = ')' then
        match opened with
        | [] => .error ⟨.unmatchedClosing, position⟩
        | _ :: outer => checkParentheses next outer rest
      else checkParentheses next opened rest

/-- Refuse an operator directly after another one, unless it is a minus. -/
def checkOperatorRuns (position : Nat) (afterOperator : Bool) :
    Text → Except SyntaxError Unit
  | [] => .ok ()
  | character :: rest =>
      let isOperator := isOperatorCharacter character
      if isOperator && afterOperator && character != '-' then
        .error ⟨.consecutiveOperators, position⟩
      else
        checkOperatorRuns (position + character.utf8Size) isOperator rest

/-- Refuse an operator as the last character that is not blank. -/
def checkEnd (source : Text) : Except SyntaxError Unit :=
  match (Text.trimEnd source).getLast? with
  | some last =>
      if isOperatorCharacter last then
        .error ⟨.trailingOperator,
          Text.byteSize (Text.trimEnd source).dropLast⟩
      else .ok ()
  | none => .ok ()

/-- Check the characters of a source.  Its start counts as following an
operator. -/
def check (source : Text) : Except SyntaxError Unit := do
  if (Text.trim source).isEmpty then
    throw ⟨.emptyExpression, 0⟩
  checkParentheses 0 [] source
  checkOperatorRuns 0 true source
  checkEnd source

end Source
end GraphingCalculator
