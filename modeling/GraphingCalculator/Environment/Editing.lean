import GraphingCalculator.Definition.Splitting
import GraphingCalculator.Environment.Compilation
import GraphingCalculator.Environment.Evaluation

/-!
# Changing an environment

Definitions are added, removed and renamed.  A name is given once: it has to be
removed before it is defined again.  An expression that reads the free variable
defines a function; any other one is evaluated at once and defines a constant.
An operation that fails changes nothing.
-/

namespace GraphingCalculator

/-- The definition with every reference to `old` turned to `new`.  A constant
keeps its value, and only its source changes. -/
def UserDefinition.renameReferences (old new : Text) :
    UserDefinition → UserDefinition
  | function formula =>
      if formula.references old then function (formula.rename old new)
      else function formula
  | constant value source => constant value (renameIdentifier old new source)

namespace Environment

/-- Check that a name can be given to a new definition. -/
def checkAvailable (environment : Environment) (name : Text) :
    Except DefinitionError Unit :=
  if name.isEmpty then .error .emptyName
  else if !isIdentifier name then .error (.invalidIdentifier name)
  else if name = variableName then .error .reservedVariable
  else
    match environment.definition? name with
    | none => .ok ()
    | some (.builtinFunction _) => .error (.builtinFunction name)
    | some (.builtinConstant _) => .error (.builtinConstant name)
    | some (.user (.function _)) => .error (.duplicateFunction name)
    | some (.user (.constant _ _)) => .error (.duplicateConstant name)

/-- What a formula defines: a function if it reads the free variable, and else
the constant with its value at zero. -/
def definitionOf (environment : Environment) (formula : Formula) :
    Except DefinitionError UserDefinition :=
  if formula.usesVariable then .ok (.function formula)
  else
    match environment.evaluate formula.expression 0 with
    | .ok value => .ok (.constant value formula.source)
    | .error error => .error (.invalidConstant error)

/-- The environment with one more definition. -/
def insert (environment : Environment) (name : Text)
    (definition : UserDefinition) : Environment :=
  { environment with
    entries := (name, definition) :: environment.entries
    generation := environment.generation + 1 }

theorem userDefinition?_insert (environment : Environment)
    (name other : Text) (definition : UserDefinition) :
    (environment.insert name definition).userDefinition? other =
      if other = name then some definition
      else environment.userDefinition? other := by
  by_cases same : other = name
  · simp [insert, userDefinition?, same]
  · have differs : (other == name) = false := by simp [same]
    simp [insert, userDefinition?, List.lookup_cons, differs, same]

/-- Define a compiled formula under a name. -/
def register (environment : Environment) (name : Text) (formula : Formula) :
    Except DefinitionError (UserDefinition × Environment) := do
  environment.checkAvailable name
  let definition ← environment.definitionOf formula
  return (definition, environment.insert name definition)

/-- Compile a source and define it under a name. -/
def define (environment : Environment) (name source : Text) :
    Except DefinitionError (UserDefinition × Environment) := do
  environment.checkAvailable name
  let formula ← (environment.compile source).mapError .invalidExpression
  environment.register name formula

/-- Process a definition `name = expression`, and return the name.  Positions of
errors refer to the whole text. -/
def processDefinition (environment : Environment) (text : Text) :
    Except DefinitionError (Text × Environment) := do
  let parts ← SplitDefinition.ofText text
  let (_, defined) ← (environment.define parts.name parts.expression).mapError
    (DefinitionError.shiftExpression parts.offset)
  return (parts.name, defined)

/-- Process definitions in order, up to the first one that fails. -/
def processDefinitions (environment : Environment) (texts : List Text) :
    Except DefinitionError Environment :=
  texts.foldlM
    (fun current text => return (← current.processDefinition text).2)
    environment

/-- Take away the definition that the user gave to a name, if there is one. -/
def remove (environment : Environment) (name : Text) :
    Option UserDefinition × Environment :=
  match environment.userDefinition? name with
  | none => (none, environment)
  | some definition =>
      (some definition,
        { environment with
          entries := environment.entries.filter fun (other, _) => other ≠ name
          generation := environment.generation + 1 })

/-- Give the definition of `old` the name `new`, and let every definition that
refers to `old` refer to `new`. -/
def rename (environment : Environment) (old new : Text) :
    Except DefinitionError Environment :=
  match environment.userDefinition? old with
  | none => .error (.notDefined old)
  | some _ =>
      if old = new then .ok environment
      else do
        environment.checkAvailable new
        return { environment with
          entries := environment.entries.map fun (name, definition) =>
            (Expression.renameName old new name,
              definition.renameReferences old new)
          generation := environment.generation + 1 }

end Environment
end GraphingCalculator
