import GraphingCalculator.CalculationError
import GraphingCalculator.Environment.Editing

/-!
# Rows

A row holds the text that a user typed.  Its body is the expression in that
text, with an optional `name =` before it, and it is defined under the name of
the row.  A row is blank, or compiled, or failed.
-/

namespace GraphingCalculator

/-- What became of the body of a row. -/
inductive Row.State
  | blank
  | compiled (formula : Formula)
  | failed (error : CalculationError)
  deriving DecidableEq

/-- A row of a worksheet.  The offset is the byte position of the body in the
text. -/
structure Row where
  name : Text
  text : Text
  body : Text
  offset : Nat
  state : Row.State
  isEnabled : Bool
  deriving DecidableEq

namespace Row

/-- The formula of a row that compiles. -/
def formula? (row : Row) : Option Formula :=
  match row.state with
  | .compiled formula => some formula
  | _ => none

/-- The error of a row that failed. -/
def error? (row : Row) : Option CalculationError :=
  match row.state with
  | .failed error => some error
  | _ => none

/-- An empty row that waits for an expression after its name. -/
def empty (name : Text) : Row :=
  let text := name ++ " = ".toList
  { name, text, body := [], offset := Text.byteSize text, state := .blank
    isEnabled := true }

/-- The name that rows have in the absence of another one. -/
def defaultName (number : Nat) : Text :=
  'y' :: Nat.toDigits 10 number

/-- What a typed text says about a row: its name, if there is an equals sign,
and its body with the offset. -/
structure Reading where
  name? : Option Text
  body : Text
  offset : Nat

/-- Read a typed text. -/
def read (text : Text) : Except DefinitionError Reading :=
  if (Text.trim text).contains '=' then do
    let parts ← SplitDefinition.ofText text
    if isIdentifier parts.name then
      return ⟨some parts.name, parts.expression, parts.offset⟩
    else throw (.invalidIdentifier parts.name)
  else
    .ok ⟨none, Text.trim text, Text.byteSize (text.takeWhile isBlank)⟩

/-- The row with another text, of which nothing is read yet. -/
def withText (text : Text) (row : Row) : Row :=
  { row with text, body := [], offset := 0 }

/-- The row with another body. -/
def withBody (body : Text) (offset : Nat) (row : Row) : Row :=
  { row with body, offset }

/-- The row with every identifier `old` replaced by `new`.  The body stays the
end of the text. -/
def renameIdentifiers (old new : Text) (row : Row) : Row :=
  let body := renameIdentifier old new row.body
  let text := renameIdentifier old new row.text
  if text = row.text then { row with body }
  else
    { row with
      body
      text
      offset := Text.byteSize (Text.trimEnd text) - Text.byteSize body }

/-- Compile the body of a row and define it under its name, in place of what it
defined before. -/
def compile (environment : Environment) (row : Row) : State × Environment :=
  let cleared := (environment.remove row.name).2
  if (Text.trim row.body).isEmpty then (.blank, cleared)
  else
    match cleared.compile row.body with
    | .error error => (.failed (.inSource (error.shift row.offset)), cleared)
    | .ok formula =>
        match cleared.register row.name formula with
        | .error error => (.failed (.inDefinition error), cleared)
        | .ok (_, defined) => (.compiled formula, defined)

/-- The value of a row at a number.  A blank row is undefined. -/
def evaluate (environment : Environment) (row : Row) (x : Float) :
    Except CalculationError Float :=
  match row.state with
  | .blank => .error (.inEvaluation (.undefined row.name))
  | .compiled formula =>
      (environment.evaluate formula.expression x).mapError .inEvaluation
  | .failed error => .error error

end Row

/-- Whether a row failed. -/
def Row.State.result : Row.State → Except CalculationError Unit
  | .failed error => .error error
  | _ => .ok ()

end GraphingCalculator
