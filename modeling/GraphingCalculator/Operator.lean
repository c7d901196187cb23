/-!
# Binary operators

The five arithmetic operators, their spelling and how tightly they bind.
-/

namespace GraphingCalculator

/-- A binary operator of the expression language. -/
inductive Operator
  | plus
  | minus
  | times
  | divide
  | power
  deriving DecidableEq

namespace Operator

/-- The operator spelled by a character. -/
def ofChar? : Char → Option Operator
  | '+' => some plus
  | '-' => some minus
  | '*' => some times
  | '/' => some divide
  | '^' => some power
  | _ => none

/-- The character that spells an operator. -/
def toChar : Operator → Char
  | plus => '+'
  | minus => '-'
  | times => '*'
  | divide => '/'
  | power => '^'

@[simp] theorem ofChar?_toChar (operator : Operator) :
    ofChar? operator.toChar = some operator := by
  cases operator <;> rfl

/-- How tightly an operator binds; the tighter one is applied first. -/
def precedence : Operator → Nat
  | plus | minus => 1
  | times | divide => 2
  | power => 3

/-- Check whether equal operators group to the left.  All of them do, powers
included: `2^3^2` is `(2^3)^2`. -/
def isLeftAssociative : Operator → Bool
  | _ => true

/-- Check whether an operator standing to the left of `next` is applied before
it. -/
def isAppliedBefore (earlier next : Operator) : Bool :=
  next.isLeftAssociative && next.precedence ≤ earlier.precedence

end Operator

/-- Check whether a character spells an operator. -/
def isOperatorCharacter (character : Char) : Bool :=
  (Operator.ofChar? character).isSome

end GraphingCalculator
