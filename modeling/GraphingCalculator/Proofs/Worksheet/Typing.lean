import GraphingCalculator.Proofs.Worksheet.Generations
import GraphingCalculator.Proofs.Worksheet.Histories
import GraphingCalculator.Proofs.Worksheet.Searching

/-!
# Typing in place

An edit writes into its row before it knows whether the text can be read, and
a text that names the row renames the others before its body is compiled.  What
was written then is not taken back when a later step fails: the row is let fail
instead, and the rows that depend on it are compiled in any case.  This file
writes an edit as a program that changes a worksheet in place and stops at the
first error, and proves that it ends with the result and the worksheet of the
edit.
-/

namespace GraphingCalculator

/-- A program that edits a worksheet in place.  What it has written stays when
it fails. -/
abbrev Editing (Value : Type) := EStateM CalculationError Worksheet Value

namespace Editing

variable {Value Result : Type} {sheet after : Worksheet}

/-- The end of a program with a result. -/
def ending (result : Except CalculationError Value) (sheet : Worksheet) :
    EStateM.Result CalculationError Worksheet Value :=
  match result with
  | .ok value => .ok value sheet
  | .error error => .error error sheet

/-- End with a result. -/
def conclude (result : Except CalculationError Value) : Editing Value :=
  ending result

/-- Go on with a value, or fail for the sake of a definition. -/
def ofDefinition (result : Except DefinitionError Value) : Editing Value :=
  conclude (result.mapError .inDefinition)

/-- Do a program to its end, and look at its result later. -/
def attempt (program : Editing Value) :
    Editing (Except CalculationError Value) := fun sheet =>
  match program sheet with
  | .ok value after => .ok (.ok value) after
  | .error error after => .ok (.error error) after

/-- A program that only fails for the sake of definitions. -/
def ofInPlace (program : InPlace Worksheet Value) : Editing Value := fun sheet =>
  match program sheet with
  | .ok value after => .ok value after
  | .error error after => .error (.inDefinition error) after

theorem ofDefinition_ok_bind (value : Value) (next : Value → Editing Result)
    (sheet : Worksheet) :
    (ofDefinition (.ok value) >>= next) sheet = next value sheet :=
  rfl

theorem attempt_of_error {program : Editing Value} {error : CalculationError}
    (ends : program sheet = .error error after) :
    attempt program sheet = .ok (.error error) after := by
  unfold attempt
  rw [ends]

theorem attempt_of_ending {program : Editing Value}
    {result : Except CalculationError Value}
    (ends : program sheet = ending result after) :
    attempt program sheet = .ok result after := by
  unfold attempt
  rw [ends]
  cases result <;> rfl

end Editing

open Editing

namespace Worksheet

variable {sheet renamed : Worksheet} {index : Nat} {row : Row}

/-- The definition of a row is taken away before its body is compiled, and it is
given back when that has succeeded. -/
def compileRow (row : Row) : Editing Row.State := do
  modify fun sheet =>
    { sheet with environment := (sheet.environment.remove row.name).2 }
  if (Text.trim row.body).isEmpty then return .blank
  else do
    let cleared ← get
    match cleared.environment.compile row.body with
    | .error error => throw (.inSource (error.shift row.offset))
    | .ok formula =>
        match cleared.environment.register row.name formula with
        | .error error => throw (.inDefinition error)
        | .ok (_, environment) => do
            set { cleared with environment }
            return .compiled formula

theorem compileRow_eq (row : Row) (sheet : Worksheet) :
    compileRow row sheet =
      ending ((row.compile sheet.environment).1.result.map
          fun _ => (row.compile sheet.environment).1)
        { sheet with environment := (row.compile sheet.environment).2 } := by
  unfold compileRow
  rw [modify_bind]
  by_cases isBlank : (Text.trim row.body).isEmpty = true
  · rw [Row.compile_of_isBlank isBlank, if_pos isBlank]
    rfl
  · unfold Row.compile
    dsimp only
    rw [if_neg isBlank, if_neg isBlank, get_bind]
    dsimp only
    cases ((sheet.environment.remove row.name).2).compile row.body with
    | error error => rfl
    | ok formula =>
        dsimp only
        cases ((sheet.environment.remove row.name).2).register row.name formula with
        | error error => rfl
        | ok defined => rfl

/-- A row is let fail if it does not compile, and then the error is passed
on. -/
def recompileInPlace (index : Nat) : Editing Unit := do
  let sheet ← get
  match sheet.rows[index]? with
  | none => return ()
  | some row => do
      match ← attempt (compileRow row) with
      | .ok state =>
          modify fun sheet => sheet.modifyRow index fun row =>
            { row with state }
      | .error error => do
          modify fun sheet => sheet.failRow index error
          throw error

theorem failRow_of_undefined (found : sheet.rows[index]? = some row)
    (undefined : sheet.environment.userDefinition? row.name = none)
    (error : CalculationError) :
    sheet.failRow index error =
      { sheet with
        rows := sheet.rows.set index
          { row with state := .failed error } } := by
  rw [failRow, found]
  dsimp only
  rw [Environment.remove_of_undefined undefined]

theorem userDefinition?_compile_of_failed {environment : Environment}
    {error : CalculationError}
    (fails : (row.compile environment).1 = .failed error) :
    (row.compile environment).2.userDefinition? row.name = none := by
  rcases Row.compile_cases environment row with
    ⟨-, ends⟩ | ⟨_, ends⟩ | ⟨_, _, -, -, ends⟩
  · rw [ends, Environment.userDefinition?_remove_self]
  · rw [ends, Environment.userDefinition?_remove_self]
  · rw [ends] at fails
    contradiction

theorem recompileInPlace_eq (found : sheet.rows[index]? = some row) :
    recompileInPlace index sheet =
      ending (row.compile sheet.environment).1.result
        (sheet.recompile index) := by
  have compiles := attempt_of_ending (compileRow_eq row sheet)
  unfold recompileInPlace
  rw [get_bind, found]
  dsimp only
  rw [bind_of_ok compiles, recompile_eq found]
  have foundCleared : (Worksheet.mk (row.compile sheet.environment).2
      sheet.rows).rows[index]? = some row := found
  cases isState : (row.compile sheet.environment).1 with
  | blank | compiled formula =>
      exact congrArg (EStateM.Result.ok ()) (modifyRow_eq foundCleared _)
  | failed error =>
      exact congrArg (EStateM.Result.error error)
        (failRow_of_undefined foundCleared
          (userDefinition?_compile_of_failed isState) error)

/-- A row that has just failed is as it would be after it is let fail once
more. -/
theorem failRow_recompile (found : sheet.rows[index]? = some row)
    {error : CalculationError}
    (fails : (row.compile sheet.environment).1 = .failed error) :
    (sheet.recompile index).failRow index error = sheet.recompile index := by
  obtain ⟨inRange, -⟩ := List.getElem?_eq_some_iff.mp found
  rw [recompile_eq found, failRow_of_undefined
    (List.getElem?_set_self inRange) (userDefinition?_compile_of_failed fails)]
  rw [List.set_set, fails]

/-- The row under the edit follows its new name at once.  The definition is
renamed first, then the row, and then the mentions in the other rows. -/
def renameRowInPlace (index : Nat) (old new : Text) :
    InPlace Worksheet Unit := do
  InPlace.examine fun sheet => sheet.checkName new
  renameDefinitionInPlace old new
  modify (renameOwner (some index) new)
  modify fun sheet => sheet.propagateRename old new (some index)

theorem renameRowInPlace_eq (index : Nat) (old new : Text) :
    renameRowInPlace index old new =
      InPlace.atomically fun sheet => do
        let renamed ← sheet.renameRow index old new
        return ((), renamed) := by
  unfold renameRowInPlace renameRow
  rw [renameDefinitionInPlace_eq, InPlace.atomically_bind_modify,
    InPlace.examine_bind_atomically]
  funext sheet
  unfold InPlace.atomically
  dsimp only
  cases sheet.checkName new with
  | error error => rfl
  | ok isFree =>
      cases sheet.renameDefinition old new with
      | error error => rfl
      | ok environment => rfl

/-- Rename the row at an index as its new text asks for. -/
def applyNameInPlace (index : Nat) (reading : Row.Reading) : Editing Unit := do
  let sheet ← get
  match reading.name?, sheet.names[index]? with
  | some new, some old =>
      if new = old then return ()
      else ofInPlace (renameRowInPlace index old new)
  | _, _ => return ()

theorem applyNameInPlace_eq (found : sheet.rows[index]? = some row)
    (reading : Row.Reading) :
    applyNameInPlace index reading sheet =
      match sheet.applyName index row.name reading with
      | .ok renamed => .ok () renamed
      | .error error => .error (.inDefinition error) sheet := by
  unfold applyNameInPlace applyName
  rw [get_bind, getElem?_names found]
  cases reading.name? with
  | none => rfl
  | some new =>
      dsimp only
      by_cases same : new = row.name
      · rw [if_pos same, if_pos same]
        rfl
      · rw [if_neg same, if_neg same, ofInPlace, renameRowInPlace_eq,
          InPlace.atomically]
        cases sheet.renameRow index row.name new with
        | ok renamed => rfl
        | error error => rfl

/-- Nothing but the text is left of the row before it is read.  The name comes
first, and then the body. -/
def applyTextInPlace (index : Nat) (text : Text) : Editing Unit := do
  modify fun sheet => sheet.modifyRow index fun row =>
    { row with body := [], offset := 0 }
  let reading ← ofDefinition (Row.read text)
  applyNameInPlace index reading
  modify fun sheet =>
    sheet.modifyRow index (Row.withBody reading.body reading.offset)
  recompileInPlace index

/-- Let a row fail, if there is an error. -/
def settleInPlace (index : Nat) (result : Except CalculationError Unit) :
    Editing Unit :=
  match result with
  | .ok () => return ()
  | .error error => modify fun sheet => sheet.failRow index error

/-- Compile the rows that depend on the row at an index. -/
def refreshInPlace (index : Nat) : Editing Unit :=
  modify fun sheet =>
    match sheet.names[index]? with
    | none => sheet
    | some name => sheet.refreshDependents name (some index)

/-- The text is written first.  After an error the row is let fail, and the
error is returned when the rows have been compiled that depend on the row. -/
def editInPlace (index : Nat) (text : Text) : Editing Unit := do
  modify fun sheet => sheet.modifyRow index fun row => { row with text }
  let result ← attempt (applyTextInPlace index text)
  settleInPlace index result
  refreshInPlace index
  conclude result

/-- A row whose name was read is still there. -/
theorem exists_row_of_applyName {renamed : Worksheet} {name : Text}
    {reading : Row.Reading}
    (found : sheet.rows[index]? = some row)
    (renames : sheet.applyName index name reading = .ok renamed) :
    ∃ later, renamed.rows[index]? = some later := by
  obtain ⟨inRange, -⟩ := List.getElem?_eq_some_iff.mp found
  rw [← length_applyName renames] at inRange
  exact ⟨_, List.getElem?_eq_getElem inRange⟩

theorem applyTextInPlace_eq {typed : Worksheet} (text : Text)
    (isTyped : (sheet.modifyRow index fun row =>
      { row with body := [], offset := 0 }) = typed)
    (found : typed.rows[index]? = some row) :
    applyTextInPlace index text sheet =
      match typed.applyText index row.name text with
      | .error error => .error (.inDefinition error) typed
      | .ok applied =>
          ending (match applied.rows[index]? with
            | none => .ok ()
            | some current => current.state.result) applied := by
  unfold applyTextInPlace applyText
  rw [modify_bind, isTyped]
  cases Row.read text with
  | error error => rfl
  | ok reading =>
      rw [ofDefinition_ok_bind, ok_bind]
      have names := applyNameInPlace_eq found reading
      cases renames : typed.applyName index row.name reading with
      | error error =>
          rw [renames] at names
          rw [bind_of_error names]
          rfl
      | ok renamed =>
          rw [renames] at names
          rw [bind_of_ok names, modify_bind, ok_bind]
          dsimp only
          obtain ⟨later, foundLater⟩ := exists_row_of_applyName found renames
          have foundPlaced := getElem?_modifyRow_self foundLater
            (Row.withBody reading.body reading.offset)
          obtain ⟨inRange, -⟩ := List.getElem?_eq_some_iff.mp foundPlaced
          rw [recompileInPlace_eq foundPlaced, recompile_eq foundPlaced]
          simp only [pure, Except.pure, List.getElem?_set_self inRange]

theorem edit?_eq_some (found : sheet.rows[index]? = some row) {text : Text}
    {current : Row} (isCurrent :
      (sheet.retype index row.name text).rows[index]? = some current) :
    sheet.edit? index text =
      some (current.state.result,
        (sheet.retype index row.name text).refreshDependents current.name
          (some index)) := by
  rw [edit?, found, Option.map_some]
  cases applies : (sheet.modifyRow index (Row.withText text)).applyText index
      row.name text with
  | ok applied =>
      rw [retype_of_ok applies] at isCurrent ⊢
      dsimp only
      rw [applies, isCurrent]
  | error error =>
      rw [retype_of_error applies] at isCurrent ⊢
      dsimp only
      rw [applies, isCurrent]

theorem modifyRow_withText (sheet : Worksheet) (index : Nat) (text : Text) :
    ((sheet.modifyRow index fun row => { row with text }).modifyRow index
        fun row => { row with body := [], offset := 0 }) =
      sheet.modifyRow index (Row.withText text) := by
  rw [modifyRow, modifyRow, modifyRow, List.modify_modify_eq]
  rfl

/-- A text that is applied and does not compile has let its row fail. -/
theorem failRow_of_applyText {text : Text} {applied : Worksheet}
    {current : Row} {error : CalculationError}
    (found : sheet.rows[index]? = some row)
    (applies : sheet.applyText index row.name text = .ok applied)
    (isCurrent : applied.rows[index]? = some current)
    (fails : current.state = .failed error) :
    applied.failRow index error = applied := by
  obtain ⟨reading, renamed, -, renames, rfl⟩ := exists_of_applyText applies
  obtain ⟨later, foundLater⟩ := exists_row_of_applyName found renames
  have foundPlaced := getElem?_modifyRow_self foundLater
    (Row.withBody reading.body reading.offset)
  obtain ⟨inRange, -⟩ := List.getElem?_eq_some_iff.mp foundPlaced
  refine failRow_recompile foundPlaced ?_
  rw [recompile_eq foundPlaced, List.getElem?_set_self inRange,
    Option.some.injEq] at isCurrent
  rw [← fails, ← isCurrent]

/-- After the row is settled, only the rows that depend on it are compiled. -/
theorem settle_bind_refresh {result : Except CalculationError Unit}
    {settled : Worksheet} {current : Row}
    (settles : settleInPlace index result sheet = .ok () settled)
    (isCurrent : settled.rows[index]? = some current) :
    (do
      settleInPlace index result
      refreshInPlace index
      conclude result : Editing Unit) sheet =
      ending result
        (settled.refreshDependents current.name (some index)) := by
  rw [bind_of_ok settles, refreshInPlace, modify_bind,
    getElem?_names isCurrent]
  rfl

theorem editInPlace_eq_of_retype (found : sheet.rows[index]? = some row)
    {text : Text} {current : Row} (isCurrent :
      (sheet.retype index row.name text).rows[index]? = some current) :
    editInPlace index text sheet =
      ending current.state.result
        ((sheet.retype index row.name text).refreshDependents current.name
          (some index)) := by
  have foundTyped := getElem?_modifyRow_self found (Row.withText text)
  have ends := applyTextInPlace_eq text (modifyRow_withText sheet index text)
    foundTyped
  have sameName : (row.withText text).name = row.name := rfl
  rw [sameName] at ends
  unfold editInPlace
  rw [modify_bind]
  cases applies : (sheet.modifyRow index (Row.withText text)).applyText index
      row.name text with
  | error error =>
      rw [applies] at ends
      rw [retype_of_error applies] at isCurrent ⊢
      have isFailed : current.state = .failed (.inDefinition error) := by
        obtain ⟨inRange, -⟩ := List.getElem?_eq_some_iff.mp found
        rw [(isRetyped_failRow found text _).rows,
          List.getElem?_set_self inRange, Option.some.injEq] at isCurrent
        rw [← isCurrent]
      rw [isFailed, bind_of_ok (attempt_of_error ends)]
      exact settle_bind_refresh rfl isCurrent
  | ok applied =>
      rw [applies] at ends
      rw [retype_of_ok applies] at isCurrent ⊢
      dsimp only at ends
      rw [isCurrent] at ends
      dsimp only at ends
      rw [bind_of_ok (attempt_of_ending ends)]
      refine settle_bind_refresh ?_ isCurrent
      cases isState : current.state with
      | blank | compiled formula => rfl
      | failed error =>
          exact congrArg (EStateM.Result.ok ())
            (failRow_of_applyText foundTyped applies isCurrent isState)

/-- An edit in place ends with the result and the worksheet of the edit. -/
theorem editInPlace_eq (found : sheet.rows[index]? = some row) (text : Text) :
    ∃ result after, sheet.edit? index text = some (result, after) ∧
      editInPlace index text sheet = ending result after := by
  obtain ⟨inRange, -⟩ := List.getElem?_eq_some_iff.mp found
  rw [← length_retype sheet index row.name text] at inRange
  have isCurrent := List.getElem?_eq_getElem inRange
  exact ⟨_, _, edit?_eq_some found isCurrent,
    editInPlace_eq_of_retype found isCurrent⟩

end Worksheet
end GraphingCalculator
