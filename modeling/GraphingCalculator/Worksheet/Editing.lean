import GraphingCalculator.Worksheet.Dependents
import GraphingCalculator.Worksheet.Renaming

/-!
# Editing a worksheet

Rows are inserted, typed into, enabled and removed.  After an edit the row is
compiled, and after it every row that depends on it.
-/

namespace GraphingCalculator
namespace Worksheet

/-- Check whether a name is in use, in the environment or by a row. -/
def isTaken (sheet : Worksheet) (name : Text) : Bool :=
  sheet.environment.contains name ||
    sheet.rows.any fun row => row.name = name

/-- The first default name from a number on that is not in use.  Among one more
names than there are definitions and rows, one is free. -/
def freeName (sheet : Worksheet) (number : Nat) : Text :=
  let candidates := (List.range'
    number (sheet.environment.entries.length + sheet.rows.length + 1)).map
      Row.defaultName
  (candidates.find? fun name => !sheet.isTaken name).getD
    (Row.defaultName number)

/-- Insert an empty row before the row at an index, or at the end, and return
its index. -/
def insertRow (sheet : Worksheet) (index : Nat) : Nat × Worksheet :=
  let place := min index sheet.rows.length
  let row := Row.empty (sheet.freeName (place + 1))
  (place, { sheet with rows := sheet.rows.insertIdx place row })

/-- Add an empty row at the end, and return its index. -/
def pushRow (sheet : Worksheet) : Nat × Worksheet :=
  sheet.insertRow sheet.rows.length

/-- Rename the row at an index as its new text asks for. -/
def applyName (sheet : Worksheet) (index : Nat) (old : Text)
    (reading : Row.Reading) : Except DefinitionError Worksheet :=
  match reading.name? with
  | none => .ok sheet
  | some new =>
      if new = old then .ok sheet else sheet.renameRow index old new

/-- Read the text that was typed into a row: its name, and then its body.  A
text that is refused leaves nothing to compile. -/
def applyText (sheet : Worksheet) (index : Nat) (name text : Text) :
    Except DefinitionError Worksheet := do
  let reading ← Row.read text
  let renamed ← sheet.applyName index name reading
  let placed := renamed.modifyRow index
    (Row.withBody reading.body reading.offset)
  return placed.recompile index

/-- Replace the text of the row at an index.  Text with an equals sign names
the row.  There is no result if there is no such row. -/
def edit? (sheet : Worksheet) (index : Nat) (text : Text) :
    Option (Except CalculationError Unit × Worksheet) :=
  sheet.rows[index]?.map fun row =>
    let typed := sheet.modifyRow index (Row.withText text)
    let edited :=
      match typed.applyText index row.name text with
      | .ok applied => applied
      | .error error => typed.failRow index (.inDefinition error)
    match edited.rows[index]? with
    | some current =>
        (current.state.result,
          edited.refreshDependents current.name (some index))
    | none => (.ok (), edited)

/-- Enable or disable the plotting of the row at an index. -/
def setEnabled? (sheet : Worksheet) (index : Nat) (isEnabled : Bool) :
    Option Worksheet :=
  sheet.rows[index]?.map fun _ =>
    sheet.modifyRow index fun row => { row with isEnabled }

/-- Move the row at an index down by one default name, if it still carries the
default name of the place below.  It stays as it is if the name is not free. -/
def moveDown (sheet : Worksheet) (index : Nat) : Worksheet :=
  let old := Row.defaultName (index + 2)
  if (sheet.rows[index]?.map Row.name) = some old then
    match sheet.rename old (Row.defaultName (index + 1)) with
    | .ok renamed => renamed
    | .error _ => sheet
  else sheet

/-- Remove the row at an index.  The rows after it that carry default names
move down one place, and the rows that depended on it are compiled again. -/
def removeRow? (sheet : Worksheet) (index : Nat) : Option (Row × Worksheet) :=
  sheet.rows[index]?.map fun removed =>
    let remaining : Worksheet :=
      { environment := (sheet.environment.remove removed.name).2
        rows := sheet.rows.eraseIdx index }
    let moved := (List.range' index (remaining.rows.length - index)).foldl
      moveDown remaining
    (removed, moved.refreshDependents removed.name none)

end Worksheet
end GraphingCalculator
