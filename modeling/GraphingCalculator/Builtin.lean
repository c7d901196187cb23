import GraphingCalculator.Text.Basic

/-!
# Built-in functions and constants

Ten functions of one argument and four constants are known everywhere.  Each
function has a domain, outside of which it is not applied.
-/

namespace GraphingCalculator

/-- A function that every expression can call. -/
inductive BuiltinFunction
  | sin
  | cos
  | tan
  | sqrt
  | ln
  | exp
  | abs
  | asin
  | acos
  | atan
  deriving DecidableEq

/-- A constant that every expression can name. -/
inductive BuiltinConstant
  | e
  | pi
  | phi
  | tau
  deriving DecidableEq

/-- The part of the real line where a function is defined. -/
inductive Domain
  | real
  | positive
  | nonNegative
  | unitInterval
  deriving DecidableEq

namespace Domain

/-- Check whether a number lies in a domain.  NaN is refused by the unit
interval only. -/
def contains : Domain → Float → Bool
  | real, _ => true
  | positive, number => !decide (number ≤ 0)
  | nonNegative, number => !decide (number < 0)
  | unitInterval, number => decide (-1 ≤ number) && decide (number ≤ 1)

/-- Why a number outside of a domain is refused. -/
def refusal : Domain → String
  | real => "argument must be a number"
  | positive => "logarithm of non-positive number"
  | nonNegative => "square root of negative number"
  | unitInterval => "argument must be between -1 and 1"

end Domain

namespace BuiltinFunction

/-- Every built-in function. -/
def all : List BuiltinFunction :=
  [sin, cos, tan, sqrt, ln, exp, abs, asin, acos, atan]

/-- The name that calls a function. -/
def name : BuiltinFunction → Text
  | sin => ['s', 'i', 'n']
  | cos => ['c', 'o', 's']
  | tan => ['t', 'a', 'n']
  | sqrt => ['s', 'q', 'r', 't']
  | ln => ['l', 'n']
  | exp => ['e', 'x', 'p']
  | abs => ['a', 'b', 's']
  | asin => ['a', 's', 'i', 'n']
  | acos => ['a', 'c', 'o', 's']
  | atan => ['a', 't', 'a', 'n']

/-- The function called by a name. -/
def ofName? (name : Text) : Option BuiltinFunction :=
  all.find? fun function => function.name = name

@[simp] theorem ofName?_name (function : BuiltinFunction) :
    ofName? function.name = some function := by
  cases function <;> rfl

/-- Where a function is defined. -/
def domain : BuiltinFunction → Domain
  | sqrt => .nonNegative
  | ln => .positive
  | asin | acos => .unitInterval
  | _ => .real

/-- The floating-point value of a function. -/
def value : BuiltinFunction → Float → Float
  | sin => Float.sin
  | cos => Float.cos
  | tan => Float.tan
  | sqrt => Float.sqrt
  | ln => Float.log
  | exp => Float.exp
  | abs => Float.abs
  | asin => Float.asin
  | acos => Float.acos
  | atan => Float.atan

end BuiltinFunction

namespace BuiltinConstant

/-- Every built-in constant. -/
def all : List BuiltinConstant :=
  [e, pi, phi, tau]

/-- The name of a constant. -/
def name : BuiltinConstant → Text
  | e => ['e']
  | pi => ['p', 'i']
  | phi => ['p', 'h', 'i']
  | tau => ['t', 'a', 'u']

/-- The constant with a name. -/
def ofName? (name : Text) : Option BuiltinConstant :=
  all.find? fun constant => constant.name = name

@[simp] theorem ofName?_name (constant : BuiltinConstant) :
    ofName? constant.name = some constant := by
  cases constant <;> rfl

/-- The floating-point value of a constant. -/
def value : BuiltinConstant → Float
  | e => 2.718281828459045
  | pi => 3.141592653589793
  | phi => 1.618033988749895
  | tau => 6.283185307179586

end BuiltinConstant
end GraphingCalculator
