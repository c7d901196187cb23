import GraphingCalculator.Proofs.Worksheet.Agreement
import GraphingCalculator.Proofs.Worksheet.Freshness

/-!
# Rows that are overtaken

Each row is compiled at most once after a change, and rows can mention each
other in circles, so that a definition may change after a row that reads it was
compiled.  Such a row is overtaken until it is compiled again.  This file tracks
the rows that are overtaken through every operation, and proves that all other
rows are fresh.
-/

namespace GraphingCalculator
namespace Worksheet

/-- A row is overtaken by a change of the definitions if a name that it reads
gets another meaning. -/
def Overtakes (before after : Worksheet) (name : Text) : Prop :=
  ∃ row ∈ before.rows, row.name = name ∧ ∃ target,
    row.Reads before.environment target ∧
      after.environment.meaning? target ≠ before.environment.meaning? target

end Worksheet

/-- A row is left behind by a renaming if it reads the new name, which meant
nothing before, or if it failed and reads the old name or has it in its text:
its error keeps the old name and the old position. -/
def Row.IsLeftBehind (environment : Environment) (old new : Text) (row : Row) :
    Prop :=
  row.Reads environment new ∨
    (row.error? ≠ none ∧
      (row.Reads environment old ∨ mentions row.text old = true))

/-- A worksheet together with the names of the rows that are overtaken. -/
structure Tracked where
  sheet : Worksheet
  overtaken : Text → Prop

namespace Tracked

/-- No row is overtaken before there is one. -/
def ofEnvironment (environment : Environment) : Tracked :=
  ⟨.ofEnvironment environment, fun _ => False⟩

/-- The rows that read a definition which changes are overtaken. -/
def advance (tracked : Tracked) (after : Worksheet) : Tracked :=
  ⟨after, fun name =>
    tracked.overtaken name ∨ tracked.sheet.Overtakes after name⟩

/-- Compiling a row catches up with everything that it reads. -/
def recompile (tracked : Tracked) (index : Nat) : Tracked :=
  { tracked.advance (tracked.sheet.recompile index) with
    overtaken := fun name =>
      (tracked.advance (tracked.sheet.recompile index)).overtaken name ∧
        tracked.sheet.rows[index]?.map Row.name ≠ some name }

/-- Rename a definition and the row that carries its name, and follow the
mentions of it. -/
def renameWith (tracked : Tracked) (environment : Environment)
    (old new : Text) (skipped : Option Nat) : Tracked :=
  let relabeled : Worksheet :=
    ⟨environment, tracked.sheet.rows.map (Row.relabel old new)⟩
  (relabeled.rewritten old new skipped).foldl recompile
    { sheet := relabeled.rewrite old new skipped
      overtaken := fun name => ∃ row ∈ tracked.sheet.rows,
        Expression.renameName old new row.name = name ∧
          (tracked.overtaken row.name ∨
            row.IsLeftBehind tracked.sheet.environment old new) }

def rename (tracked : Tracked) (old new : Text) : Tracked :=
  if old = new then tracked
  else
    match tracked.sheet.rename old new,
        tracked.sheet.renameDefinition old new with
    | .ok _, .ok environment => tracked.renameWith environment old new none
    | _, _ => tracked

def renameRow (tracked : Tracked) (index : Nat) (old new : Text) :
    Except DefinitionError Tracked := do
  tracked.sheet.checkName new
  let environment ← tracked.sheet.renameDefinition old new
  return tracked.renameWith environment old new (some index)

def modifyRow (tracked : Tracked) (index : Nat) (change : Row → Row) :
    Tracked :=
  { tracked with sheet := tracked.sheet.modifyRow index change }

def applyName (tracked : Tracked) (index : Nat) (old : Text)
    (reading : Row.Reading) : Except DefinitionError Tracked :=
  match reading.name? with
  | none => .ok tracked
  | some new =>
      if new = old then .ok tracked else tracked.renameRow index old new

def applyText (tracked : Tracked) (index : Nat) (name text : Text) :
    Except DefinitionError Tracked := do
  let reading ← Row.read text
  let renamed ← tracked.applyName index name reading
  let placed := renamed.modifyRow index
    (Row.withBody reading.body reading.offset)
  return placed.recompile index

def refreshDependents (tracked : Tracked) (name : Text)
    (skipped : Option Nat) : Tracked :=
  (Worksheet.dependents (tracked.sheet.rowsExcept skipped) [name]).foldl
    recompile tracked

def retype (tracked : Tracked) (index : Nat) (name text : Text) : Tracked :=
  let typed := tracked.modifyRow index (Row.withText text)
  match typed.applyText index name text with
  | .ok applied => applied
  | .error error =>
      typed.advance (typed.sheet.failRow index (.inDefinition error))

def edit (tracked : Tracked) (index : Nat) (text : Text) : Tracked :=
  match tracked.sheet.rows[index]? with
  | none => tracked
  | some row =>
      let edited := tracked.retype index row.name text
      match edited.sheet.rows[index]? with
      | none => edited
      | some current => edited.refreshDependents current.name (some index)

def moveDown (tracked : Tracked) (index : Nat) : Tracked :=
  let old := Row.defaultName (index + 2)
  if (tracked.sheet.rows[index]?.map Row.name) = some old then
    tracked.rename old (Row.defaultName (index + 1))
  else tracked

def removeRow (tracked : Tracked) (index : Nat) : Tracked :=
  match tracked.sheet.rows[index]? with
  | none => tracked
  | some removed =>
      let remaining : Worksheet :=
        { environment := (tracked.sheet.environment.remove removed.name).2
          rows := tracked.sheet.rows.eraseIdx index }
      let moved := (List.range' index (remaining.rows.length - index)).foldl
        moveDown (tracked.advance remaining)
      moved.refreshDependents removed.name none

/-- The tracked worksheet after an operation. -/
def perform (tracked : Tracked) : Worksheet.Operation → Tracked
  | .edit index text => tracked.edit index text
  | .rename old new => tracked.rename old new
  | .removeRow index => tracked.removeRow index
  | operation => tracked.advance (tracked.sheet.perform operation)

/-- The tracked worksheet after a sequence of operations. -/
def performAll (tracked : Tracked) (operations : List Worksheet.Operation) :
    Tracked :=
  operations.foldl perform tracked

section Sheet

open Worksheet

variable {tracked : Tracked} {start : Environment} {present : Text → Text}
variable {pending : Nat → Prop}

theorem sheet_recompileAll (tracked : Tracked) (indices : List Nat) :
    (indices.foldl recompile tracked).sheet =
      indices.foldl Worksheet.recompile tracked.sheet := by
  induction indices generalizing tracked with
  | nil => rfl
  | cons index rest ih => exact ih (tracked.recompile index)

theorem sheet_refreshDependents (tracked : Tracked) (name : Text)
    (skipped : Option Nat) :
    (tracked.refreshDependents name skipped).sheet =
      tracked.sheet.refreshDependents name skipped :=
  sheet_recompileAll tracked _

theorem sheet_renameWith (tracked : Tracked) (environment : Environment)
    (old new : Text) (skipped : Option Nat) :
    (tracked.renameWith environment old new skipped).sheet =
      (Worksheet.mk environment
        (tracked.sheet.rows.map (Row.relabel old new))).propagateRename
          old new skipped :=
  sheet_recompileAll _ _

theorem sheet_rename
    (consistent : IsConsistent start present pending tracked.sheet)
    (old new : Text) :
    (tracked.rename old new).sheet =
      tracked.sheet.perform (.rename old new) := by
  rw [rename, Worksheet.perform]
  by_cases differs : old = new
  · rw [if_pos differs, Worksheet.rename, if_pos differs]
  rw [if_neg differs]
  cases renames : tracked.sheet.rename old new with
  | error error => rfl
  | ok renamed =>
      obtain ⟨-, environment, renamesDefinition, rfl⟩ :=
        consistent.rename_eq_ok differs renames
      rw [renamesDefinition]
      exact sheet_renameWith tracked environment old new none

theorem sheet_renameRow
    (consistent : IsConsistent start present pending tracked.sheet)
    {index : Nat} {row : Row} (found : tracked.sheet.rows[index]? = some row)
    (new : Text) :
    (tracked.renameRow index row.name new).map sheet =
      tracked.sheet.renameRow index row.name new := by
  unfold renameRow Worksheet.renameRow
  cases tracked.sheet.checkName new with
  | error error => rfl
  | ok available =>
      cases tracked.sheet.renameDefinition row.name new with
      | error error => rfl
      | ok environment =>
          have relabels := consistent.modify_name_eq found rfl new
          simp only [ok_bind, pure, Except.pure, Except.map, sheet_renameWith,
            Worksheet.modifyRow, relabels]

theorem sheet_applyText
    (consistent : IsConsistent start present pending tracked.sheet)
    {index : Nat} {row : Row} (found : tracked.sheet.rows[index]? = some row)
    (text : Text) :
    (tracked.applyText index row.name text).map sheet =
      tracked.sheet.applyText index row.name text := by
  unfold applyText Worksheet.applyText
  cases Row.read text with
  | error error => rfl
  | ok reading =>
      have sameName : (tracked.applyName index row.name reading).map sheet =
          tracked.sheet.applyName index row.name reading := by
        unfold applyName Worksheet.applyName
        cases reading.name? with
        | none => rfl
        | some new =>
            by_cases same : new = row.name
            · simp only [same, if_true]
              rfl
            · simp only [same, if_false]
              exact sheet_renameRow consistent found new
      simp only [ok_bind, ← sameName]
      cases tracked.applyName index row.name reading <;> rfl

theorem sheet_retype
    (consistent : IsConsistent start present pending tracked.sheet)
    {index : Nat} {row : Row} (found : tracked.sheet.rows[index]? = some row)
    (text : Text) :
    (tracked.retype index row.name text).sheet =
      tracked.sheet.retype index row.name text := by
  have consistentTyped : IsConsistent start present
      (fun other => pending other ∨ other = index)
      (tracked.modifyRow index (Row.withText text)).sheet :=
    consistent.modifyRow index (Row.withText text) fun row => rfl
  have foundTyped : (tracked.modifyRow index
      (Row.withText text)).sheet.rows[index]? = some (row.withText text) := by
    rw [modifyRow, getElem?_modifyRow, found]
    simp
  have same : ((tracked.modifyRow index (Row.withText text)).applyText index
      row.name text).map sheet = (tracked.sheet.modifyRow index
        (Row.withText text)).applyText index row.name text :=
    sheet_applyText consistentTyped foundTyped text
  rw [retype, Worksheet.retype, ← same]
  cases (tracked.modifyRow index (Row.withText text)).applyText index row.name
    text <;> rfl

theorem sheet_edit
    (consistent : IsConsistent start present pending tracked.sheet)
    (index : Nat) (text : Text) :
    (tracked.edit index text).sheet =
      tracked.sheet.perform (.edit index text) := by
  rw [edit, Worksheet.perform]
  cases found : tracked.sheet.rows[index]? with
  | none => rw [edit?, found]; rfl
  | some row =>
      rw [edit?_eq found, ← sheet_retype consistent found]
      dsimp only
      cases (tracked.retype index row.name text).sheet.rows[index]? with
      | none => rfl
      | some current => exact sheet_refreshDependents _ _ _

theorem sheet_moveDown
    (consistent : IsConsistent start present pending tracked.sheet)
    (index : Nat) :
    (tracked.moveDown index).sheet = tracked.sheet.moveDown index := by
  unfold moveDown Worksheet.moveDown
  dsimp only
  split
  next => exact sheet_rename consistent _ _
  next => rfl

theorem sheet_moveDownAll
    (consistent :
      IsConsistent start present (fun _ => False) tracked.sheet)
    (places : List Nat) :
    (places.foldl moveDown tracked).sheet =
      places.foldl Worksheet.moveDown tracked.sheet := by
  induction places generalizing tracked with
  | nil => rfl
  | cons place rest ih =>
      have moves := sheet_moveDown consistent place
      have consistentNext :
          IsConsistent start present (fun _ => False)
            (tracked.moveDown place).sheet := by
        rw [moves]
        exact consistent.moveDown place
      rw [List.foldl_cons, List.foldl_cons, ih consistentNext, moves]

theorem sheet_removeRow
    (consistent :
      IsConsistent start present (fun _ => False) tracked.sheet)
    (index : Nat) :
    (tracked.removeRow index).sheet =
      tracked.sheet.perform (.removeRow index) := by
  rw [removeRow, Worksheet.perform, removeRow?]
  cases found : tracked.sheet.rows[index]? with
  | none => rfl
  | some removed =>
      have remains : IsConsistent start present (fun _ => False)
          (tracked.advance ⟨(tracked.sheet.environment.remove removed.name).2,
            tracked.sheet.rows.eraseIdx index⟩).sheet :=
        consistent.removeFirst found
      dsimp only [Option.map_some, Option.getD_some]
      rw [sheet_refreshDependents, sheet_moveDownAll remains]
      rfl

/-- Tracking does not change what an operation does. -/
theorem sheet_perform
    (consistent :
      IsConsistent start present (fun _ => False) tracked.sheet)
    (operation : Operation) :
    (tracked.perform operation).sheet = tracked.sheet.perform operation := by
  cases operation with
  | edit index text => exact sheet_edit consistent index text
  | rename old new => exact sheet_rename consistent old new
  | removeRow index => exact sheet_removeRow consistent index
  | pushRow | insertRow | setEnabled => rfl

end Sheet

end Tracked
end GraphingCalculator
