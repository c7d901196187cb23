import GraphingCalculator.Proofs.Environment.InPlace
import GraphingCalculator.Proofs.Worksheet.Agreement

/-!
# Generations of a worksheet

Whatever an operation does to a worksheet, it changes the definitions by
removing, inserting and renaming them one by one, and each of these changes is
counted.  So the generation of a worksheet identifies its definitions along
every run, as it does for an environment by itself.
-/

namespace GraphingCalculator

open Environment InPlace

theorem Row.precedes_compile (environment : Environment) (row : Row) :
    environment.Precedes (row.compile environment).2 := by
  have removed := precedes_remove environment row.name
  rcases compile_cases environment row with
    ⟨-, ends⟩ | ⟨error, ends⟩ | ⟨formula, definition, -, -, ends⟩
  · rw [ends]
    exact removed
  · rw [ends]
    exact removed
  · rw [ends]
    exact removed.trans (precedes_insert _ _ _)

namespace Worksheet

/-- Every change of the definitions on the way from one worksheet to another is
counted. -/
def Precedes (earlier later : Worksheet) : Prop :=
  earlier.environment.Precedes later.environment

section Steps

variable {earlier middle later sheet renamed : Worksheet} {old new : Text}

/-- Rows can change without a change of the definitions. -/
theorem Precedes.of_environment
    (same : later.environment = earlier.environment) :
    earlier.Precedes later := by
  rw [Precedes, same]
  exact .refl _

theorem Precedes.trans (first : earlier.Precedes middle)
    (second : middle.Precedes later) : earlier.Precedes later :=
  Environment.Precedes.trans first second

theorem precedes_recompile (sheet : Worksheet) (index : Nat) :
    sheet.Precedes (sheet.recompile index) := by
  unfold recompile
  split
  next => exact .of_environment rfl
  next row _ => exact row.precedes_compile sheet.environment

theorem precedes_recompileAll (sheet : Worksheet) (indices : List Nat) :
    sheet.Precedes (indices.foldl recompile sheet) := by
  induction indices generalizing sheet with
  | nil => exact .of_environment rfl
  | cons index rest ih => exact (sheet.precedes_recompile index).trans (ih _)

theorem precedes_failRow (sheet : Worksheet) (index : Nat)
    (error : CalculationError) :
    sheet.Precedes (sheet.failRow index error) := by
  unfold failRow
  split
  next => exact .of_environment rfl
  next row _ => exact precedes_remove sheet.environment row.name

theorem precedes_modifyRow (sheet : Worksheet) (index : Nat)
    (change : Row → Row) : sheet.Precedes (sheet.modifyRow index change) :=
  .of_environment rfl

theorem precedes_renameDefinition {environment : Environment}
    (renames : sheet.renameDefinition old new = .ok environment) :
    sheet.Precedes { sheet with environment } := by
  unfold renameDefinition at renames
  split at renames
  next => exact precedes_rename renames
  next =>
      cases renames
      exact .of_environment rfl

theorem precedes_propagateRename (sheet : Worksheet) (old new : Text)
    (skipped : Option Nat) :
    sheet.Precedes (sheet.propagateRename old new skipped) := by
  rw [propagateRename_eq]
  have rewritten : sheet.Precedes (sheet.rewrite old new skipped) :=
    .of_environment rfl
  exact rewritten.trans (precedes_recompileAll _ _)

theorem precedes_of_rename (renames : sheet.rename old new = .ok renamed) :
    sheet.Precedes renamed := by
  unfold rename at renames
  split at renames
  next =>
      cases renames
      exact .of_environment rfl
  dsimp only at renames
  split at renames
  · contradiction
  obtain ⟨-, renames⟩ := check_bind_eq_ok_iff.mp renames
  obtain ⟨environment, renamesDefinition, renames⟩ := bind_eq_ok_iff.mp renames
  cases renames
  have moved := precedes_renameDefinition renamesDefinition
  split
  next index _ =>
      exact (moved.trans (precedes_modifyRow _ index _)).trans
        (precedes_propagateRename _ old new none)
  next => exact moved.trans (precedes_propagateRename _ old new none)

theorem precedes_of_renameRow {index : Nat}
    (renames : sheet.renameRow index old new = .ok renamed) :
    sheet.Precedes renamed := by
  obtain ⟨-, renames⟩ := check_bind_eq_ok_iff.mp renames
  obtain ⟨environment, renamesDefinition, renames⟩ := bind_eq_ok_iff.mp renames
  cases renames
  have moved := precedes_renameDefinition renamesDefinition
  exact (moved.trans (precedes_modifyRow _ index _)).trans
    (precedes_propagateRename _ old new (some index))

theorem precedes_of_applyText {index : Nat} {name text : Text}
    {applied : Worksheet}
    (applies : sheet.applyText index name text = .ok applied) :
    sheet.Precedes applied := by
  obtain ⟨reading, -, applies⟩ := bind_eq_ok_iff.mp applies
  obtain ⟨renamed, renames, applies⟩ := bind_eq_ok_iff.mp applies
  cases applies
  have follows : sheet.Precedes renamed := by
    unfold applyName at renames
    split at renames
    next =>
        cases renames
        exact .of_environment rfl
    next =>
        split at renames
        next =>
            cases renames
            exact .of_environment rfl
        next => exact precedes_of_renameRow renames
  exact (follows.trans (precedes_modifyRow _ index _)).trans
    (precedes_recompile _ index)

theorem precedes_retype (sheet : Worksheet) (index : Nat) (name text : Text) :
    sheet.Precedes (sheet.retype index name text) := by
  have typed := sheet.precedes_modifyRow index (Row.withText text)
  unfold retype
  dsimp only
  split
  next applied applies => exact typed.trans (precedes_of_applyText applies)
  next error _ => exact typed.trans (precedes_failRow _ index _)

theorem precedes_moveDown (sheet : Worksheet) (index : Nat) :
    sheet.Precedes (sheet.moveDown index) := by
  unfold moveDown
  dsimp only
  split
  next =>
      split
      next renamed renames => exact precedes_of_rename renames
      next => exact .of_environment rfl
  next => exact .of_environment rfl

theorem precedes_moveDownAll (sheet : Worksheet) (places : List Nat) :
    sheet.Precedes (places.foldl moveDown sheet) := by
  induction places generalizing sheet with
  | nil => exact .of_environment rfl
  | cons place rest ih => exact (sheet.precedes_moveDown place).trans (ih _)

theorem precedes_perform (sheet : Worksheet) (operation : Operation) :
    sheet.Precedes (sheet.perform operation) := by
  cases operation with
  | pushRow | insertRow => exact .of_environment rfl
  | edit index text =>
      cases found : sheet.rows[index]? with
      | none =>
          rw [perform, edit?, found]
          exact .of_environment rfl
      | some row =>
          have retyped := sheet.precedes_retype index row.name text
          rw [perform, edit?_eq found]
          split
          next => exact retyped
          next => exact retyped.trans (precedes_recompileAll _ _)
  | rename old new =>
      rw [perform]
      split
      next renamed renames => exact precedes_of_rename renames
      next => exact .of_environment rfl
  | removeRow index =>
      cases found : sheet.rows[index]? with
      | none =>
          rw [perform, removeRow?, found]
          exact .of_environment rfl
      | some removed =>
          have remains : sheet.Precedes
              ⟨(sheet.environment.remove removed.name).2,
                sheet.rows.eraseIdx index⟩ :=
            precedes_remove sheet.environment removed.name
          rw [perform, removeRow?, found]
          exact (remains.trans (precedes_moveDownAll _ _)).trans
            (precedes_recompileAll _ _)
  | setEnabled index isEnabled =>
      rw [perform, setEnabled?]
      cases sheet.rows[index]? with
      | none => exact .of_environment rfl
      | some row => exact .of_environment rfl

theorem precedes_performAll (sheet : Worksheet)
    (operations : List Operation) :
    sheet.Precedes (sheet.performAll operations) := by
  induction operations generalizing sheet with
  | nil => exact .of_environment rfl
  | cons operation rest ih =>
      exact (sheet.precedes_perform operation).trans (ih _)

end Steps

section Programs

variable {old new : Text}

/-- A program on the environment of a worksheet. -/
def onEnvironment {Value : Type} (program : InPlace Environment Value) :
    InPlace Worksheet Value := fun sheet =>
  match program sheet.environment with
  | .ok value environment => .ok value { sheet with environment }
  | .error error environment => .error error { sheet with environment }

def renameDefinitionInPlace (old new : Text) : InPlace Worksheet Unit := do
  if (← get).environment.contains old then
    onEnvironment (Environment.renameInPlace old new)

theorem renameDefinitionInPlace_eq (old new : Text) :
    renameDefinitionInPlace old new =
      atomically fun sheet => do
        let environment ← sheet.renameDefinition old new
        return ((), { sheet with environment }) := by
  funext sheet
  rw [renameDefinitionInPlace, get_bind]
  unfold atomically renameDefinition
  dsimp only
  by_cases isDefined : sheet.environment.contains old = true
  · rw [if_pos isDefined, if_pos isDefined, onEnvironment, renameInPlace_eq,
      atomically]
    cases sheet.environment.rename old new with
    | ok renamed => rfl
    | error error => rfl
  · rw [if_neg isDefined, if_neg isDefined]
    rfl

/-- Give the row at an index another name, if there is an index. -/
def renameOwner (owner : Option Nat) (new : Text) (sheet : Worksheet) :
    Worksheet :=
  match owner with
  | some index => sheet.modifyRow index fun row => { row with name := new }
  | none => sheet

/-- The definition is renamed first, then the row that carries the name, and
then the mentions of it. -/
def renameInPlace (old new : Text) : InPlace Worksheet Unit := do
  if old = new then return ()
  else do
    let sheet ← get
    let owner := sheet.rows.findIdx? fun row => row.name = old
    if owner.isNone && !sheet.environment.contains old then
      throw (.notDefined old)
    else do
      examine fun sheet => sheet.checkName new
      renameDefinitionInPlace old new
      modify (renameOwner owner new)
      modify fun sheet => sheet.propagateRename old new none

theorem renameInPlace_eq (old new : Text) :
    renameInPlace old new =
      atomically fun sheet => do
        let renamed ← sheet.rename old new
        return ((), renamed) := by
  funext sheet
  unfold renameInPlace rename
  by_cases same : old = new
  · rw [if_pos same, atomically, if_pos same]
    rfl
  rw [if_neg same, get_bind, atomically, if_neg same]
  dsimp only
  split
  · rfl
  · rw [renameDefinitionInPlace_eq, atomically_bind_modify,
      examine_bind_atomically, atomically]
    cases sheet.checkName new with
    | error error => rfl
    | ok isFree =>
        cases sheet.renameDefinition old new with
        | error error => rfl
        | ok environment => rfl

/-- A renaming that fails has written nothing. -/
theorem eq_of_renameInPlace_eq_error {sheet after : Worksheet}
    {error : DefinitionError}
    (fails : renameInPlace old new sheet = .error error after) :
    after = sheet := by
  rw [renameInPlace_eq, atomically_eq_error_iff] at fails
  exact fails.2

theorem finalState_renameInPlace (sheet : Worksheet) (old new : Text) :
    finalState (renameInPlace old new sheet) =
      sheet.perform (.rename old new) := by
  rw [renameInPlace_eq, finalState_atomically, perform]
  cases sheet.rename old new with
  | ok renamed => rfl
  | error error => rfl

end Programs

/-- An operation in place leaves the state as the operation on values does.  One
that fails has written nothing, and one that is refused changes nothing.  What
is accepted by an environment changes the definition of some name and is counted
once, unless it is a renaming to the same name.  Along a run of an environment
or of a worksheet generations do not decrease, and two states of the run with
the same generation have the same definitions; a counter of 64 bits tells them
apart as well, as long as fewer than 2 ^ 64 changes lie between them. -/
theorem generation_performAll :
    (∀ (environment : Environment) (operation : Environment.Operation),
      let outcome := operation.inPlace environment
      finalState outcome = environment.perform operation ∧
        (∀ error after, outcome = .error error after →
          operation.IsRefused environment ∧ after = environment) ∧
        (operation.IsRefused environment →
          finalState outcome = environment) ∧
        (¬ operation.IsRefused environment →
          (∀ name, operation ≠ .rename name name) →
            environment.Counts (finalState outcome))) ∧
      (∀ (sheet : Worksheet) (old new : Text),
        let outcome := renameInPlace old new sheet
        finalState outcome = sheet.perform (.rename old new) ∧
          ∀ error after, outcome = .error error after → after = sheet) ∧
      (∀ (environment : Environment)
          (before after : List Environment.Operation),
        let earlier := environment.performAll before
        let later := environment.performAll (before ++ after)
        earlier.generation ≤ later.generation ∧
          (later.generation < earlier.generation + 2 ^ 64 →
            later.generation % 2 ^ 64 = earlier.generation % 2 ^ 64 →
              later = earlier)) ∧
      ∀ (sheet : Worksheet) (before after : List Operation),
        let earlier := (sheet.performAll before).environment
        let later := (sheet.performAll (before ++ after)).environment
        earlier.generation ≤ later.generation ∧
          (later.generation < earlier.generation + 2 ^ 64 →
            later.generation % 2 ^ 64 = earlier.generation % 2 ^ 64 →
              later = earlier) := by
  refine ⟨?_, ?_, ?_, ?_⟩
  · intro environment operation outcome
    have performed : finalState outcome = environment.perform operation :=
      finalState_inPlace environment operation
    rw [performed]
    exact ⟨rfl, fun _ _ => eq_of_inPlace_eq_error, perform_of_isRefused,
      counts_perform⟩
  · intro sheet old new outcome
    exact ⟨finalState_renameInPlace sheet old new,
      fun _ _ => eq_of_renameInPlace_eq_error⟩
  · intro environment before after earlier later
    have precedes : earlier.Precedes later := by
      rw [show later = earlier.performAll after from List.foldl_append]
      exact Environment.precedes_performAll earlier after
    exact ⟨precedes.generation_le, precedes.eq_of_mod_eq⟩
  · intro sheet before after earlier later
    have precedes : earlier.Precedes later := by
      rw [show later = ((sheet.performAll before).performAll after).environment
        from congrArg environment List.foldl_append]
      exact (sheet.performAll before).precedes_performAll after
    exact ⟨precedes.generation_le, precedes.eq_of_mod_eq⟩

end Worksheet
end GraphingCalculator
