import GraphingCalculator.Proofs.Worksheet.Refreshing

/-!
# What happens to a row in a run

A row is typed into, renamed, enabled and compiled, and nothing else happens to
it.  This file lists the compilations of a run, each with the environment of
that moment, and tells what a single step of an operation does to one row.  So
every row of a run has a history that begins with an empty row.
-/

namespace GraphingCalculator

/-- A compilation: the environment before it, and the row that is compiled. -/
abbrev Compilation := Environment × Row

namespace Worksheet

section Compilations

/-- The compilations of a pass, in order. -/
def passCompilations (sheet : Worksheet) : List Nat → List Compilation
  | [] => []
  | index :: rest =>
      (sheet.rows[index]?.map fun row =>
          (sheet.environment, row.outline)).toList ++
        (sheet.recompile index).passCompilations rest

/-- The compilations of the rows that mention a renamed definition. -/
def mentionCompilations (sheet : Worksheet) (environment : Environment)
    (old new : Text) (skipped : Option Nat) : List Compilation :=
  let relabeled : Worksheet :=
    ⟨environment, sheet.rows.map (Row.relabel old new)⟩
  (relabeled.rewrite old new skipped).passCompilations
    (relabeled.rewritten old new skipped)

def renameCompilations (sheet : Worksheet) (old new : Text) :
    List Compilation :=
  if old = new then []
  else
    match sheet.rename old new, sheet.renameDefinition old new with
    | .ok _, .ok environment =>
        sheet.mentionCompilations environment old new none
    | _, _ => []

/-- The compilations when a typed text gives its row another name. -/
def nameCompilations (sheet : Worksheet) (index : Nat) (old : Text)
    (reading : Row.Reading) : List Compilation :=
  match reading.name? with
  | none => []
  | some new =>
      if new = old then []
      else
        match sheet.renameDefinition old new with
        | .ok environment =>
            sheet.mentionCompilations environment old new (some index)
        | .error _ => []

def retypeCompilations (sheet : Worksheet) (index : Nat) (name text : Text) :
    List Compilation :=
  let typed := sheet.modifyRow index (Row.withText text)
  match Row.read text with
  | .error _ => []
  | .ok reading =>
      match typed.applyName index name reading with
      | .error _ => []
      | .ok renamed =>
          typed.nameCompilations index name reading ++
            (renamed.modifyRow index (Row.withBody reading.body
              reading.offset)).passCompilations [index]

def moveCompilations (sheet : Worksheet) (index : Nat) : List Compilation :=
  let old := Row.defaultName (index + 2)
  if (sheet.rows[index]?.map Row.name) = some old then
    sheet.renameCompilations old (Row.defaultName (index + 1))
  else []

def moveAllCompilations (sheet : Worksheet) : List Nat → List Compilation
  | [] => []
  | place :: rest =>
      sheet.moveCompilations place ++
        (sheet.moveDown place).moveAllCompilations rest

def removeCompilations (sheet : Worksheet) (index : Nat) (removed : Row) :
    List Compilation :=
  let remaining : Worksheet :=
    { environment := (sheet.environment.remove removed.name).2
      rows := sheet.rows.eraseIdx index }
  let places := List.range' index (remaining.rows.length - index)
  let moved := places.foldl moveDown remaining
  remaining.moveAllCompilations places ++
    moved.passCompilations
      (dependents (moved.rowsExcept none) [removed.name])

/-- The compilations of an operation. -/
def compilations (sheet : Worksheet) : Operation → List Compilation
  | .edit index text =>
      match sheet.rows[index]? with
      | none => []
      | some row =>
          let retyped := sheet.retype index row.name text
          sheet.retypeCompilations index row.name text ++
            retyped.passCompilations (retyped.followers index)
  | .rename old new => sheet.renameCompilations old new
  | .removeRow index =>
      match sheet.rows[index]? with
      | none => []
      | some removed => sheet.removeCompilations index removed
  | _ => []

/-- The compilations of a run. -/
def compilationsAll (sheet : Worksheet) : List Operation → List Compilation
  | [] => []
  | operation :: rest =>
      sheet.compilations operation ++
        (sheet.perform operation).compilationsAll rest

end Compilations

end Worksheet

namespace Row

/-- The row after its compilation. -/
def compiled (environment : Environment) (row : Row) : Row :=
  { row with state := (row.compile environment).1 }

/-- The row after a renaming. -/
def rename (old new : Text) (row : Row) : Row :=
  (row.relabel old new).renameIdentifiers old new

/-- The row after a text was typed into it and read. -/
def typed (text : Text) (reading : Reading) (row : Row) : Row :=
  { (row.withText text).withBody reading.body reading.offset with
    name := reading.name?.getD row.name }

/-- A change of a row that keeps its body, so that it is not compiled. -/
inductive Keeps : Row → Row → Prop
  | enable (row : Row) (isEnabled : Bool) : Keeps row { row with isEnabled }
  | rename {row : Row} {old new : Text} (definable : IsDefinable new)
      (sameBody : renameIdentifier old new row.body = row.body) :
      Keeps row (row.rename old new)

/-- What one step of an operation does to a row, with its compilation among the
given ones. -/
inductive Step (log : List Compilation) : Row → Row → Prop
  | keep {row later : Row} (keeps : Keeps row later) : Step log row later
  | compile {row : Row} {environment : Environment} (hasBody : row.body ≠ [])
      (logged : (environment, row.outline) ∈ log) :
      Step log row (row.compiled environment)
  | rename {row : Row} {old new : Text} {environment : Environment}
      (definable : IsDefinable new) (hasBody : row.body ≠ [])
      (logged : (environment, (row.rename old new).outline) ∈ log) :
      Step log row ((row.rename old new).compiled environment)
  | type {row : Row} {text : Text} {reading : Reading}
      {environment : Environment} (reads : read text = .ok reading)
      (definable : IsDefinable (row.typed text reading).name)
      (logged : (environment, (row.typed text reading).outline) ∈ log) :
      Step log row ((row.typed text reading).compiled environment)
  | refuse (row : Row) (text : Text) (error : DefinitionError) :
      Step log row
        { row.withText text with state := .failed (.inDefinition error) }

/-- The row comes from an empty row by the given compilations. -/
def HasHistory (log : List Compilation) (row : Row) : Prop :=
  ∃ name, IsDefinable name ∧ Relation.ReflTransGen (Step log) (empty name) row

theorem HasHistory.step {log : List Compilation} {row later : Row}
    (history : row.HasHistory log) (step : Step log row later) :
    later.HasHistory log := by
  obtain ⟨name, definable, steps⟩ := history
  exact ⟨name, definable, steps.tail step⟩

end Row

namespace Worksheet

/-- Every row comes from an empty row by the given compilations. -/
def HasHistories (log : List Compilation) (sheet : Worksheet) : Prop :=
  ∀ row ∈ sheet.rows, row.HasHistory log

variable {log : List Compilation} {start : Environment}
variable {present : Text → Text} {pending : Nat → Prop} {sheet : Worksheet}

section Passes

theorem passCompilations_cons {index : Nat} {row : Row}
    (found : sheet.rows[index]? = some row) (rest : List Nat) :
    sheet.passCompilations (index :: rest) =
      (sheet.environment, row.outline) ::
        (sheet.recompile index).passCompilations rest := by
  rw [passCompilations, found]
  rfl

theorem passCompilations_of_missing {index : Nat}
    (missing : sheet.rows[index]? = none) (rest : List Nat) :
    sheet.passCompilations (index :: rest) = sheet.passCompilations rest := by
  rw [passCompilations, recompile, missing]
  rfl

theorem recompile_of_missing {index : Nat}
    (missing : sheet.rows[index]? = none) : sheet.recompile index = sheet := by
  rw [recompile, missing]

/-- A row stays as it is in a pass that does not reach it, and else it ends with
one of the compilations of the pass. -/
theorem row_recompileAll {index : Nat} {row : Row}
    (found : sheet.rows[index]? = some row) (indices : List Nat) :
    (index ∉ indices ∧
        (indices.foldl recompile sheet).rows[index]? = some row) ∨
      index ∈ indices ∧ ∃ environment,
        (environment, row.outline) ∈ sheet.passCompilations indices ∧
          (indices.foldl recompile sheet).rows[index]? =
            some (row.compiled environment) := by
  induction indices generalizing sheet row with
  | nil => exact .inl ⟨List.not_mem_nil, found⟩
  | cons first rest ih =>
      cases foundFirst : sheet.rows[first]? with
      | none =>
          have differs : index ≠ first := by
            rintro rfl
            rw [found] at foundFirst
            contradiction
          rw [List.foldl_cons, recompile_of_missing foundFirst,
            passCompilations_of_missing foundFirst]
          simpa [differs] using ih found
      | some firstRow =>
          obtain ⟨inRange, -⟩ := List.getElem?_eq_some_iff.mp foundFirst
          rw [List.foldl_cons, passCompilations_cons foundFirst]
          by_cases same : first = index
          · subst same
            rw [found, Option.some.injEq] at foundFirst
            subst foundFirst
            have foundNext : (sheet.recompile first).rows[first]? =
                some (row.compiled sheet.environment) := by
              rw [recompile_eq found, List.getElem?_set_self inRange]
              rfl
            refine .inr ⟨List.mem_cons_self, ?_⟩
            rcases ih foundNext with
              ⟨-, foundLast⟩ | ⟨-, environment, logged, foundLast⟩
            · exact ⟨sheet.environment, List.mem_cons_self, foundLast⟩
            · exact ⟨environment, List.mem_cons_of_mem _ logged, foundLast⟩
          · have foundNext : (sheet.recompile first).rows[index]? =
                some row := by
              rw [recompile_eq foundFirst, List.getElem?_set_ne same, found]
            rcases ih foundNext with
              ⟨notIndex, foundLast⟩ | ⟨isIndex, environment, logged, foundLast⟩
            · exact .inl ⟨by simp [Ne.symm same, notIndex], foundLast⟩
            · exact .inr ⟨List.mem_cons_of_mem _ isIndex, environment,
                List.mem_cons_of_mem _ logged, foundLast⟩

theorem exists_row_of_recompileAll {indices : List Nat} {index : Nat}
    {later : Row}
    (found : (indices.foldl recompile sheet).rows[index]? = some later) :
    ∃ row, sheet.rows[index]? = some row := by
  obtain ⟨row, isRow, -⟩ :=
    exists_row_of_outline (outline_recompileAll sheet indices) found
  exact ⟨row, isRow⟩

/-- A search finds only rows with a body. -/
theorem body_ne_nil_of_mem_dependents {skipped : Option Nat}
    {names : List Text} {index : Nat}
    (isFound : index ∈ dependents (sheet.rowsExcept skipped) names) {row : Row}
    (found : sheet.rows[index]? = some row) : row.body ≠ [] := by
  have mentionsNothing (name : Text) : mentions [] name = false := by
    simp [mentions, identifiers, locate]
  have hasBody {index : Nat} {other : Row} {name : Text}
      (member : (index, other) ∈ sheet.rowsExcept skipped)
      (mentioned : mentions other.body name = true) :
      ∀ row, sheet.rows[index]? = some row → row.body ≠ [] := by
    intro row found noBody
    rw [(mem_rowsExcept.mp member).1, Option.some.injEq] at found
    rw [found, noBody, mentionsNothing] at mentioned
    contradiction
  exact @dependents_induct _ _
    (fun index => ∀ row, sheet.rows[index]? = some row → row.body ≠ [])
    (fun _ _ member _ _ mentioned => hasBody member mentioned)
    (fun _ _ member _ _ _ mentioned _ => hasBody member mentioned)
    index isFound row found

theorem HasHistories.pass (histories : sheet.HasHistories log)
    {skipped : Option Nat} {names : List Text}
    (logged : sheet.passCompilations
      (dependents (sheet.rowsExcept skipped) names) ⊆ log) :
    HasHistories log ((dependents (sheet.rowsExcept skipped) names).foldl
      recompile sheet) := by
  intro later member
  obtain ⟨index, found⟩ := List.getElem?_of_mem member
  obtain ⟨row, foundRow⟩ := exists_row_of_recompileAll found
  have history := histories row (List.mem_of_getElem? foundRow)
  rcases row_recompileAll foundRow
      (dependents (sheet.rowsExcept skipped) names) with
    ⟨-, foundLater⟩ | ⟨isFound, environment, isLogged, foundLater⟩
  · rw [found, Option.some.injEq] at foundLater
    exact foundLater ▸ history
  · rw [found, Option.some.injEq] at foundLater
    subst foundLater
    exact history.step (.compile
      (body_ne_nil_of_mem_dependents isFound foundRow) (logged isLogged))

end Passes

section Renaming

variable {old new : Text} {environment : Environment}

/-- The row that a renaming skips stays as it is.  Every other row is compiled
if the renaming changes its body. -/
theorem row_propagateRename {index : Nat} {row : Row}
    (found : sheet.rows[index]? = some row) (old new : Text)
    (skipped : Option Nat) :
    (skipped = some index ∧
        (sheet.propagateRename old new skipped).rows[index]? = some row) ∨
      skipped ≠ some index ∧
        ((renameIdentifier old new row.body = row.body ∧
          (sheet.propagateRename old new skipped).rows[index]? =
            some (row.renameIdentifiers old new)) ∨
        row.body ≠ [] ∧ ∃ environment,
          (environment, (row.renameIdentifiers old new).outline) ∈
              (sheet.rewrite old new skipped).passCompilations
                (sheet.rewritten old new skipped) ∧
            (sheet.propagateRename old new skipped).rows[index]? =
              some ((row.renameIdentifiers old new).compiled
                environment)) := by
  rw [propagateRename_eq]
  have isRewritten : index ∈ sheet.rewritten old new skipped ↔
      skipped ≠ some index ∧
        renameIdentifier old new row.body ≠ row.body := by
    simp only [rewritten, List.mem_map, List.mem_filter,
      List.mem_zipIdx_iff_getElem?, Prod.exists, exists_eq_right, found,
      decide_eq_true_eq]
    by_cases isSkipped : skipped = some index <;> simp [isSkipped]
  have foundRenamed : (sheet.rewrite old new skipped).rows[index]? = some
      (if skipped = some index then row
        else row.renameIdentifiers old new) := by
    rw [rewrite, List.getElem?_mapIdx, found, Option.map_some]
  rcases row_recompileAll foundRenamed (sheet.rewritten old new skipped) with
    ⟨notCompiled, foundLater⟩ | ⟨isCompiled, environment, logged, foundLater⟩
  · by_cases isSkipped : skipped = some index
    · rw [if_pos isSkipped] at foundLater
      exact .inl ⟨isSkipped, foundLater⟩
    · rw [if_neg isSkipped] at foundLater
      refine .inr ⟨isSkipped, .inl ⟨?_, foundLater⟩⟩
      by_contra changes
      exact notCompiled (isRewritten.mpr ⟨isSkipped, changes⟩)
  · obtain ⟨notSkipped, changes⟩ := isRewritten.mp isCompiled
    rw [if_neg notSkipped] at logged foundLater
    refine .inr ⟨notSkipped, .inr ⟨fun noBody => changes ?_, environment,
      logged, foundLater⟩⟩
    rw [noBody]
    simp [renameIdentifier]

theorem exists_row_of_propagateRename {skipped : Option Nat} {index : Nat}
    {later : Row} (found :
      (sheet.propagateRename old new skipped).rows[index]? = some later) :
    ∃ row, sheet.rows[index]? = some row := by
  rw [propagateRename_eq] at found
  obtain ⟨row, isRow⟩ := exists_row_of_recompileAll found
  rw [rewrite, List.getElem?_mapIdx, Option.map_eq_some_iff] at isRow
  obtain ⟨before, isBefore, -⟩ := isRow
  exact ⟨before, isBefore⟩

/-- A renaming is one step for every row that it does not skip. -/
theorem step_mention (definable : IsDefinable new) {skipped : Option Nat}
    (logged : sheet.mentionCompilations environment old new skipped ⊆ log)
    {index : Nat} {later : Row} (notSkipped : skipped ≠ some index)
    (found : ((Worksheet.mk environment (sheet.rows.map
      (Row.relabel old new))).propagateRename old new skipped).rows[index]? =
        some later) :
    ∃ row, sheet.rows[index]? = some row ∧ Row.Step log row later := by
  obtain ⟨relabeled, isRelabeled⟩ := exists_row_of_propagateRename found
  have foundRow := isRelabeled
  rw [List.getElem?_map, Option.map_eq_some_iff] at foundRow
  obtain ⟨row, foundRow, rfl⟩ := foundRow
  refine ⟨row, foundRow, ?_⟩
  rcases row_propagateRename isRelabeled old new skipped with
    ⟨isSkipped, -⟩ | ⟨-, ⟨sameBody, foundLater⟩ |
      ⟨hasBody, environment, isLogged, foundLater⟩⟩
  · exact absurd isSkipped notSkipped
  · rw [found, Option.some.injEq] at foundLater
    subst foundLater
    exact .keep (.rename definable sameBody)
  · rw [found, Option.some.injEq] at foundLater
    subst foundLater
    exact .rename definable hasBody (logged isLogged)

theorem IsConsistent.hasHistories_rename
    (consistent : IsConsistent start present pending sheet)
    (histories : sheet.HasHistories log) {renamed : Worksheet}
    (renames : sheet.rename old new = .ok renamed)
    (logged : sheet.renameCompilations old new ⊆ log) :
    renamed.HasHistories log := by
  by_cases differs : old = new
  · rw [Worksheet.rename, if_pos differs] at renames
    cases renames
    exact histories
  obtain ⟨available, environment, renamesDefinition, rfl⟩ :=
    consistent.rename_eq_ok differs renames
  rw [renameCompilations, if_neg differs, renames, renamesDefinition] at logged
  obtain ⟨definable, -⟩ := Environment.checkAvailable_eq_ok_iff.mp
    (checkName_eq_ok_iff.mp available).1
  intro later member
  obtain ⟨index, found⟩ := List.getElem?_of_mem member
  obtain ⟨row, foundRow, step⟩ :=
    step_mention definable logged (by simp) found
  exact (histories row (List.mem_of_getElem? foundRow)).step step

end Renaming

section Typing

variable {index : Nat} {row : Row} {text : Text}

theorem row_modifyRow {change : Row → Row}
    (found : sheet.rows[index]? = some row) (other : Nat) :
    (sheet.modifyRow index change).rows[other]? =
      if other = index then some (change row) else sheet.rows[other]? := by
  rw [getElem?_modifyRow]
  by_cases same : other = index
  · subst same
    rw [found]
    simp
  · simp [same, Ne.symm same]

theorem getElem?_modifyRow_self (found : sheet.rows[index]? = some row)
    (change : Row → Row) :
    (sheet.modifyRow index change).rows[index]? = some (change row) := by
  rw [row_modifyRow found, if_pos rfl]

/-- A text that names its row gives the row the name, and is one step for the
other rows. -/
theorem IsConsistent.step_applyName
    (consistent : IsConsistent start present pending sheet)
    (found : sheet.rows[index]? = some row) {reading : Row.Reading}
    {renamed : Worksheet}
    (renames : sheet.applyName index row.name reading = .ok renamed)
    (logged : sheet.nameCompilations index row.name reading ⊆ log) :
    renamed.rows[index]? =
        some { row with name := reading.name?.getD row.name } ∧
      ∀ other later, other ≠ index → renamed.rows[other]? = some later →
        ∃ before, sheet.rows[other]? = some before ∧
          Relation.ReflTransGen (Row.Step log) before later := by
  unfold applyName at renames
  unfold nameCompilations at logged
  cases isName : reading.name? with
  | none =>
      rw [isName] at renames
      cases renames
      exact ⟨found, fun other later _ foundLater => ⟨later, foundLater, .refl⟩⟩
  | some new =>
      simp only [isName] at renames logged
      by_cases same : new = row.name
      · rw [if_pos same] at renames
        cases renames
        refine ⟨?_, fun other later _ foundLater => ⟨later, foundLater, .refl⟩⟩
        rw [found, same]
        rfl
      · rw [if_neg same] at renames logged
        obtain ⟨available, environment, renamesDefinition, rfl⟩ :=
          consistent.renameRow_eq_ok found renames
        rw [renamesDefinition] at logged
        obtain ⟨definable, -⟩ := Environment.checkAvailable_eq_ok_iff.mp
          (checkName_eq_ok_iff.mp available).1
        have isRelabeled : (Worksheet.mk environment (sheet.rows.map
            (Row.relabel row.name new))).rows[index]? =
              some (row.relabel row.name new) := by
          rw [List.getElem?_map, found, Option.map_some]
        refine ⟨?_, fun other later differs foundLater => ?_⟩
        · rcases row_propagateRename isRelabeled row.name new
              (some index) with
            ⟨-, foundLater⟩ | ⟨notSkipped, -⟩
          · rw [foundLater, Row.relabel, Expression.renameName_self]
            rfl
          · exact absurd rfl notSkipped
        · obtain ⟨before, foundBefore, step⟩ :=
            step_mention definable logged (by simp [Ne.symm differs]) foundLater
          exact ⟨before, foundBefore, .single step⟩

/-- A row whose text is refused is changed in one step, and no other row is. -/
theorem hasHistories_failRow (histories : sheet.HasHistories log)
    (found : sheet.rows[index]? = some row) (text : Text)
    (error : DefinitionError) :
    HasHistories log ((sheet.modifyRow index (Row.withText text)).failRow index
      (.inDefinition error)) := by
  intro later member
  rw [(isRetyped_failRow found text _).rows] at member
  rcases List.mem_or_eq_of_mem_set member with inSheet | rfl
  · exact histories later inSheet
  · exact (histories row (List.mem_of_getElem? found)).step
      (.refuse row text error)

/-- A row is typed in one step, and the other rows follow its name. -/
theorem IsConsistent.hasHistories_retype
    (consistent : IsConsistent start present (fun _ => False) sheet)
    (histories : sheet.HasHistories log)
    (found : sheet.rows[index]? = some row)
    (logged : sheet.retypeCompilations index row.name text ⊆ log) :
    (sheet.retype index row.name text).HasHistories log := by
  have definable := (consistent.retype found text).definable
  have consistentTyped : IsConsistent start present
      (fun other => False ∨ other = index)
      (sheet.modifyRow index (Row.withText text)) :=
    consistent.modifyRow index (Row.withText text) fun row => rfl
  have foundTyped : (sheet.modifyRow index (Row.withText text)).rows[index]? =
      some (row.withText text) := by
    rw [row_modifyRow found, if_pos rfl]
  unfold Worksheet.retype at definable ⊢
  unfold retypeCompilations at logged
  dsimp only at definable logged ⊢
  cases applies : (sheet.modifyRow index (Row.withText text)).applyText index
      row.name text with
  | error error => exact hasHistories_failRow histories found text error
  | ok applied =>
      rw [applies] at definable
      obtain ⟨reading, reads, applies⟩ := bind_eq_ok_iff.mp applies
      obtain ⟨renamed, renames, applies⟩ := bind_eq_ok_iff.mp applies
      cases applies
      simp only [reads, renames, List.append_subset] at logged
      obtain ⟨foundRenamed, others⟩ :=
        consistentTyped.step_applyName foundTyped renames logged.1
      have foundPlaced : (renamed.modifyRow index (Row.withBody reading.body
          reading.offset)).rows[index]? = some (row.typed text reading) := by
        rw [row_modifyRow foundRenamed, if_pos rfl]
        rfl
      obtain ⟨inRange, -⟩ := List.getElem?_eq_some_iff.mp foundPlaced
      rw [recompile_eq foundPlaced] at definable ⊢
      rw [passCompilations_cons foundPlaced, List.cons_subset] at logged
      intro later member
      obtain ⟨place, foundLater⟩ := List.getElem?_of_mem member
      dsimp only at foundLater
      by_cases same : index = place
      · subst same
        rw [List.getElem?_set_self inRange, Option.some.injEq] at foundLater
        subst foundLater
        exact (histories row (List.mem_of_getElem? found)).step
          (.type reads (definable _ (List.mem_map.mpr ⟨_, member, rfl⟩))
            logged.2.1)
      · rw [List.getElem?_set_ne same, row_modifyRow foundRenamed,
          if_neg (Ne.symm same)] at foundLater
        obtain ⟨before, foundBefore, steps⟩ :=
          others place later (Ne.symm same) foundLater
        rw [row_modifyRow found, if_neg (Ne.symm same)] at foundBefore
        obtain ⟨name, isName, history⟩ :=
          histories before (List.mem_of_getElem? foundBefore)
        exact ⟨name, isName, history.trans steps⟩

end Typing

section Runs

theorem HasHistories.insertRow (histories : sheet.HasHistories log)
    (index : Nat) : (sheet.insertRow index).2.HasHistories log := by
  intro row member
  rcases List.eq_or_mem_of_mem_insertIdx member with rfl | inSheet
  · exact ⟨_, (isTaken_freeName sheet _).2, .refl⟩
  · exact histories row inSheet

theorem IsConsistent.hasHistories_moveDown
    (consistent : IsConsistent start present (fun _ => False) sheet)
    (histories : sheet.HasHistories log) {place : Nat}
    (logged : sheet.moveCompilations place ⊆ log) :
    (sheet.moveDown place).HasHistories log := by
  unfold Worksheet.moveDown
  unfold moveCompilations at logged
  dsimp only at logged ⊢
  split
  next isDefault =>
      rw [if_pos isDefault] at logged
      split
      next renamed renames =>
          exact consistent.hasHistories_rename histories renames logged
      next => exact histories
  next => exact histories

theorem IsConsistent.hasHistories_moveDownAll
    (consistent : IsConsistent start present (fun _ => False) sheet)
    (histories : sheet.HasHistories log) {places : List Nat}
    (logged : sheet.moveAllCompilations places ⊆ log) :
    (places.foldl Worksheet.moveDown sheet).HasHistories log := by
  induction places generalizing sheet with
  | nil => exact histories
  | cons place rest ih =>
      rw [moveAllCompilations, List.append_subset] at logged
      exact ih (consistent.moveDown place)
        (consistent.hasHistories_moveDown histories logged.1) logged.2

theorem IsConsistent.hasHistories_perform
    (consistent : IsConsistent start present (fun _ => False) sheet)
    (histories : sheet.HasHistories log) {operation : Operation}
    (logged : sheet.compilations operation ⊆ log) :
    (sheet.perform operation).HasHistories log := by
  cases operation with
  | pushRow => exact histories.insertRow _
  | insertRow index => exact histories.insertRow index
  | edit index text =>
      rw [compilations] at logged
      cases found : sheet.rows[index]? with
      | none =>
          rw [Worksheet.perform, edit?, found]
          exact histories
      | some row =>
          rw [found] at logged
          dsimp only at logged
          rw [List.append_subset] at logged
          rw [perform_edit_eq found]
          exact (consistent.hasHistories_retype histories found logged.1).pass
            logged.2
  | rename old new =>
      rw [Worksheet.perform]
      split
      next renamed renames =>
          exact consistent.hasHistories_rename histories renames logged
      next => exact histories
  | removeRow index =>
      rw [compilations] at logged
      cases found : sheet.rows[index]? with
      | none =>
          rw [Worksheet.perform, removeRow?, found]
          exact histories
      | some removed =>
          simp only [found, removeCompilations, List.append_subset] at logged
          have remains : HasHistories log
              ⟨(sheet.environment.remove removed.name).2,
                sheet.rows.eraseIdx index⟩ :=
            fun row member => histories row (List.mem_of_mem_eraseIdx member)
          rw [Worksheet.perform, removeRow?, found]
          exact ((consistent.removeFirst found).hasHistories_moveDownAll remains
            logged.1).pass logged.2
  | setEnabled index isEnabled =>
      rw [Worksheet.perform, setEnabled?]
      cases found : sheet.rows[index]? with
      | none => exact histories
      | some row =>
          intro later member
          obtain ⟨place, foundLater⟩ := List.getElem?_of_mem member
          rw [Option.map_some, Option.getD_some, row_modifyRow found]
            at foundLater
          split at foundLater
          · cases foundLater
            exact (histories row (List.mem_of_getElem? found)).step
              (.keep (.enable row isEnabled))
          · exact histories later (List.mem_of_getElem? foundLater)

theorem IsConsistent.hasHistories_performAll
    (consistent : IsConsistent start present (fun _ => False) sheet)
    (histories : sheet.HasHistories log) {operations : List Operation}
    (logged : sheet.compilationsAll operations ⊆ log) :
    (sheet.performAll operations).HasHistories log := by
  induction operations generalizing present sheet with
  | nil => exact histories
  | cons operation rest ih =>
      rw [compilationsAll, List.append_subset] at logged
      exact ih (consistent.perform operation)
        (consistent.hasHistories_perform histories logged.1) logged.2

/-- Every row of a run comes from an empty row by the compilations of the
run. -/
theorem hasHistories_performAll (start : Environment)
    (operations : List Operation) :
    ((ofEnvironment start).performAll operations).HasHistories
      ((ofEnvironment start).compilationsAll operations) :=
  (isConsistent_ofEnvironment start).hasHistories_performAll
    (fun row member => by simp [ofEnvironment] at member)
    (List.Subset.refl _)

end Runs

end Worksheet
end GraphingCalculator
