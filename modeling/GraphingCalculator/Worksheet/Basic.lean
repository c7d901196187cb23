import GraphingCalculator.Plot.Sampling
import GraphingCalculator.Worksheet.Row

/-!
# Worksheets

A worksheet is a list of rows over one environment, which holds the definitions
of the rows next to those that were there before.
-/

namespace GraphingCalculator

/-- Rows in order, and the environment of their definitions. -/
structure Worksheet where
  environment : Environment
  rows : List Row
  deriving DecidableEq

namespace Worksheet

/-- A worksheet without rows. -/
def ofEnvironment (environment : Environment) : Worksheet :=
  ⟨environment, []⟩

/-- Change the row at an index. -/
def modifyRow (sheet : Worksheet) (index : Nat) (change : Row → Row) :
    Worksheet :=
  { sheet with rows := sheet.rows.modify index change }

/-- Let a row fail, and take its definition away. -/
def failRow (sheet : Worksheet) (index : Nat) (error : CalculationError) :
    Worksheet :=
  match sheet.rows[index]? with
  | none => sheet
  | some row =>
      { environment := (sheet.environment.remove row.name).2
        rows := sheet.rows.set index { row with state := .failed error } }

/-- Compile the row at an index once more. -/
def recompile (sheet : Worksheet) (index : Nat) : Worksheet :=
  match sheet.rows[index]? with
  | none => sheet
  | some row =>
      let (state, environment) := row.compile sheet.environment
      { environment, rows := sheet.rows.set index { row with state } }

/-- The value of the row at an index, if there is one. -/
def evaluate? (sheet : Worksheet) (index : Nat) (x : Float) :
    Option (Except CalculationError Float) :=
  sheet.rows[index]?.map fun row => row.evaluate sheet.environment x

/-- The values of all rows. -/
def evaluateAll (sheet : Worksheet) (x : Float) :
    List (Except CalculationError Float) :=
  sheet.rows.map fun row => row.evaluate sheet.environment x

/-- The visible runs of every enabled row that compiles, with its index. -/
def plot (sheet : Worksheet) (window : Window) :
    List (Nat × List (List Point)) :=
  sheet.rows.zipIdx.filterMap fun (row, index) =>
    if row.isEnabled then
      row.formula?.map fun formula =>
        (index, sheet.environment.sample window formula)
    else none

end Worksheet
end GraphingCalculator
