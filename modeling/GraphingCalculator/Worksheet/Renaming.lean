import GraphingCalculator.Worksheet.Basic

/-!
# Renaming in a worksheet

A renaming reaches the definition in the environment, the row that carries the
name, and every mention of it in the other rows.
-/

namespace GraphingCalculator
namespace Worksheet

/-- Check that a name is free both in the environment and among the rows. -/
def checkName (sheet : Worksheet) (name : Text) :
    Except DefinitionError Unit := do
  sheet.environment.checkAvailable name
  if sheet.rows.any fun row => row.name = name then
    throw (.duplicateFunction name)

/-- Replace mentions of `old` in every row but one, and compile the rows whose
bodies change. -/
def propagateRename (sheet : Worksheet) (old new : Text)
    (skipped : Option Nat) : Worksheet :=
  let renamed (index : Nat) (row : Row) : Row :=
    if skipped = some index then row else row.renameIdentifiers old new
  let isChanged := fun (row, index) => (renamed index row).body ≠ row.body
  let changed := (sheet.rows.zipIdx.filter isChanged).map Prod.snd
  changed.foldl recompile { sheet with rows := sheet.rows.mapIdx renamed }

/-- The environment after a renaming.  A name without a meaning needs none. -/
def renameDefinition (sheet : Worksheet) (old new : Text) :
    Except DefinitionError Environment :=
  if sheet.environment.contains old then sheet.environment.rename old new
  else .ok sheet.environment

/-- Give the row at an index another name. -/
def renameRow (sheet : Worksheet) (index : Nat) (old new : Text) :
    Except DefinitionError Worksheet := do
  sheet.checkName new
  let environment ← sheet.renameDefinition old new
  let renamed := { sheet with environment }.modifyRow index
    fun row => { row with name := new }
  return renamed.propagateRename old new (some index)

/-- Rename a definition, the row that carries its name, and every mention of
it. -/
def rename (sheet : Worksheet) (old new : Text) :
    Except DefinitionError Worksheet :=
  if old = new then .ok sheet
  else
    let owner := sheet.rows.findIdx? fun row => row.name = old
    if owner.isNone && !sheet.environment.contains old then
      .error (.notDefined old)
    else do
      sheet.checkName new
      let environment ← sheet.renameDefinition old new
      let moved : Worksheet := { sheet with environment }
      let renamed :=
        match owner with
        | some index =>
            moved.modifyRow index fun row => { row with name := new }
        | none => moved
      return renamed.propagateRename old new none

end Worksheet
end GraphingCalculator
