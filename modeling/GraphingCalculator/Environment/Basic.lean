import GraphingCalculator.DefinitionError
import GraphingCalculator.Formula
import GraphingCalculator.Limits
import GraphingCalculator.Token.Basic

/-!
# Environments

An environment gives names a meaning: the built-in functions and constants, and
the definitions of the user.  Every change to the definitions counts as a new
generation.
-/

namespace GraphingCalculator

/-- What the user defined under a name.  A constant keeps the value that its
expression had when it was defined. -/
inductive UserDefinition
  | function (formula : Formula)
  | constant (value : Float) (source : Text)
  deriving DecidableEq

/-- What a name means. -/
inductive Definition
  | builtinConstant (constant : BuiltinConstant)
  | builtinFunction (function : BuiltinFunction)
  | user (definition : UserDefinition)
  deriving DecidableEq

/-- The definitions of the user, the latest first, and the limits on what is
compiled and evaluated. -/
structure Environment where
  limits : Limits
  entries : List (Text × UserDefinition)
  generation : Nat
  deriving DecidableEq

namespace Environment

/-- An environment without definitions of the user. -/
def empty (limits : Limits) : Environment :=
  ⟨limits, [], 0⟩

/-- The definition that the user gave to a name. -/
def userDefinition? (environment : Environment) (name : Text) :
    Option UserDefinition :=
  environment.entries.lookup name

/-- The meaning of a built-in name. -/
def builtinDefinition? (name : Text) : Option Definition :=
  match BuiltinConstant.ofName? name with
  | some constant => some (.builtinConstant constant)
  | none => (BuiltinFunction.ofName? name).map .builtinFunction

/-- The meaning of a name. -/
def definition? (environment : Environment) (name : Text) :
    Option Definition :=
  match builtinDefinition? name with
  | some definition => some definition
  | none => (environment.userDefinition? name).map .user

/-- Check whether a name has a meaning. -/
def contains (environment : Environment) (name : Text) : Bool :=
  (environment.definition? name).isSome

/-- The kind of the token that a name stands for. -/
def classify (environment : Environment) (name : Text) :
    Option Token.Kind :=
  match environment.definition? name with
  | some (.builtinConstant _) | some (.user (.constant _ _)) => some .constant
  | some (.builtinFunction _) | some (.user (.function _)) => some .function
  | none => none

/-- The value of a constant. -/
def constant? (environment : Environment) (name : Text) : Option Float :=
  match environment.definition? name with
  | some (.builtinConstant constant) => some constant.value
  | some (.user (.constant value _)) => some value
  | _ => none

/-- A function defined by the user. -/
def function? (environment : Environment) (name : Text) : Option Formula :=
  match environment.definition? name with
  | some (.user (.function formula)) => some formula
  | _ => none

end Environment

/-- Check whether a definition comes with every environment. -/
def Definition.isBuiltin : Definition → Bool
  | builtinConstant _ | builtinFunction _ => true
  | user _ => false

end GraphingCalculator
