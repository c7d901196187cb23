import GraphingCalculator.Proofs.Worksheet.Consistency
import GraphingCalculator.Proofs.Worksheet.Operation
import Mathlib.Data.List.InsertIdx

/-!
# Rows agree with their definitions on every run

Each operation of a worksheet keeps it consistent.  An edit lets its row wait
until the new body is compiled, a renaming lets the rows wait that mention the
old name, and every other step settles what it touches.  So the rows and the
definitions agree after every run, and the definitions that were there at the
start are still there.
-/

namespace GraphingCalculator

namespace Row

theorem defaultName_inj {first second : Nat}
    (same : defaultName first = defaultName second) : first = second := by
  have sameDigits : Nat.toDigits 10 first = Nat.toDigits 10 second :=
    (List.cons.inj same).2
  rw [← Nat.ofDigitChars_ten_toDigits (n := first), sameDigits,
    Nat.ofDigitChars_ten_toDigits]

/-- Default names can be defined. -/
theorem isDefinable_defaultName (number : Nat) :
    IsDefinable (defaultName number) where
  identifier := by
    have digits : (Nat.toDigits 10 number).all isNameCharacter = true := by
      rw [List.all_eq_true]
      intro digit member
      have isDigit := Nat.isDigit_of_mem_toDigits (by omega) (by omega) member
      simp [isNameCharacter, isDigit]
    rw [defaultName, isIdentifier, digits]
    rfl
  not_variable := by simp [defaultName, variableName]
  not_builtin := by
    simp [defaultName, Environment.builtinDefinition?, BuiltinConstant.ofName?,
      BuiltinConstant.all, BuiltinConstant.name, BuiltinFunction.ofName?,
      BuiltinFunction.all, BuiltinFunction.name]

end Row

namespace Worksheet

variable {start : Environment} {present : Text → Text}
variable {pending : Nat → Prop} {sheet renamed : Worksheet}

theorem isTaken_eq_false_iff {name : Text} :
    sheet.isTaken name = false ↔
      sheet.environment.contains name = false ∧ name ∉ sheet.names := by
  simp [isTaken, names]

theorem mem_keys_of_userDefinition? {environment : Environment} {name : Text}
    (isDefined : environment.userDefinition? name ≠ none) :
    name ∈ environment.entries.map Prod.fst := by
  obtain ⟨definition, found⟩ := Option.ne_none_iff_exists'.mp isDefined
  obtain ⟨before, after, split, -⟩ := List.lookup_eq_some_iff.mp found
  rw [split]
  simp

/-- Whatever is taken is a definition or a row, if it can be defined. -/
theorem mem_of_isTaken {name : Text} (definable : IsDefinable name)
    (isTaken : sheet.isTaken name = true) :
    name ∈ sheet.environment.entries.map Prod.fst ++ sheet.names := by
  rw [List.mem_append]
  by_contra notTaken
  push Not at notTaken
  have undefined : sheet.environment.userDefinition? name = none := by
    by_contra isDefined
    exact notTaken.1 (mem_keys_of_userDefinition? isDefined)
  have isFree := isTaken_eq_false_iff.mpr
    ⟨Environment.contains_eq_false_iff.mpr ⟨definable.not_builtin, undefined⟩,
      notTaken.2⟩
  rw [isTaken] at isFree
  contradiction

/-- Among one more default names than there are definitions and rows, one is
not taken. -/
theorem exists_free_number (sheet : Worksheet) (number : Nat) :
    ∃ slot ∈ List.range' number
        (sheet.environment.entries.length + sheet.rows.length + 1),
      sheet.isTaken (Row.defaultName slot) = false := by
  by_contra noneFree
  push Not at noneFree
  generalize isSize : sheet.environment.entries.length + sheet.rows.length + 1 =
    size at noneFree
  have distinct : ((List.range' number size).map Row.defaultName).Nodup :=
    (List.nodup_range' ..).map_on
      fun first _ second _ same => Row.defaultName_inj same
  have taken : (List.range' number size).map Row.defaultName ⊆
      sheet.environment.entries.map Prod.fst ++ sheet.names := by
    intro name member
    obtain ⟨slot, inRange, rfl⟩ := List.mem_map.mp member
    exact mem_of_isTaken (Row.isDefinable_defaultName slot)
      (Bool.ne_false_iff.mp (noneFree slot inRange))
  have bound := distinct.length_le_of_subset taken
  simp only [List.length_map, List.length_range', List.length_append,
    names] at bound
  omega

/-- The free name is the default name of the first number that is not taken. -/
theorem exists_freeName_eq (sheet : Worksheet) (number : Nat) :
    ∃ slot, sheet.freeName number = Row.defaultName slot ∧
      slot ∈ List.range' number
        (sheet.environment.entries.length + sheet.rows.length + 1) ∧
      sheet.isTaken (Row.defaultName slot) = false ∧
      ∀ other, number ≤ other → other < slot →
        sheet.isTaken (Row.defaultName other) = true := by
  unfold freeName
  dsimp only
  rw [List.find?_map]
  cases found : (List.range' number
      (sheet.environment.entries.length + sheet.rows.length + 1)).find?
        ((fun name => !sheet.isTaken name) ∘ Row.defaultName) with
  | some slot =>
      obtain ⟨isFree, inRange, areTaken⟩ := List.find?_range'_eq_some.mp found
      exact ⟨slot, rfl, inRange, by simpa using isFree,
        fun other notBefore before => by
          simpa using areTaken other notBefore before⟩
  | none =>
      obtain ⟨slot, inRange, isFree⟩ := exists_free_number sheet number
      have notFree := List.find?_eq_none.mp found slot inRange
      simp [isFree] at notFree

theorem isTaken_freeName (sheet : Worksheet) (number : Nat) :
    sheet.isTaken (sheet.freeName number) = false ∧
      IsDefinable (sheet.freeName number) := by
  obtain ⟨slot, isName, -, isFree, -⟩ := exists_freeName_eq sheet number
  rw [isName]
  exact ⟨isFree, Row.isDefinable_defaultName slot⟩

/-- The worksheet after the row at an index was typed and compiled, before the
rows that depend on it are. -/
def retype (sheet : Worksheet) (index : Nat) (name text : Text) : Worksheet :=
  let typed := sheet.modifyRow index (Row.withText text)
  match typed.applyText index name text with
  | .ok applied => applied
  | .error error => typed.failRow index (.inDefinition error)

theorem retype_of_ok {sheet applied : Worksheet} {index : Nat}
    {name text : Text}
    (applies : (sheet.modifyRow index (Row.withText text)).applyText index name
      text = .ok applied) :
    sheet.retype index name text = applied := by
  unfold retype
  dsimp only
  rw [applies]

theorem retype_of_error {sheet : Worksheet} {index : Nat} {name text : Text}
    {error : DefinitionError}
    (refuses : (sheet.modifyRow index (Row.withText text)).applyText index name
      text = .error error) :
    sheet.retype index name text =
      (sheet.modifyRow index (Row.withText text)).failRow index
        (.inDefinition error) := by
  unfold retype
  dsimp only
  rw [refuses]

/-- A text that is applied was read.  It has named the row, and then its body
was placed and compiled. -/
theorem exists_of_applyText {sheet applied : Worksheet} {index : Nat}
    {name text : Text}
    (applies : sheet.applyText index name text = .ok applied) :
    ∃ reading renamed, Row.read text = .ok reading ∧
      sheet.applyName index name reading = .ok renamed ∧
        applied = (renamed.modifyRow index
          (Row.withBody reading.body reading.offset)).recompile index := by
  obtain ⟨reading, reads, applies⟩ := bind_eq_ok_iff.mp applies
  obtain ⟨renamed, renames, applies⟩ := bind_eq_ok_iff.mp applies
  cases applies
  exact ⟨reading, renamed, reads, renames, rfl⟩

theorem edit?_eq {sheet : Worksheet} {index : Nat} {row : Row}
    (found : sheet.rows[index]? = some row) (text : Text) :
    ((sheet.edit? index text).map Prod.snd).getD sheet =
      match (sheet.retype index row.name text).rows[index]? with
      | none => sheet.retype index row.name text
      | some current =>
          (sheet.retype index row.name text).refreshDependents current.name
            (some index) := by
  rw [edit?, found, Option.map_some, Option.map_some, Option.getD_some]
  unfold retype
  dsimp only
  generalize sheet.modifyRow index (Row.withText text) = typed
  cases typed.applyText index row.name text with
  | ok applied =>
      dsimp only
      cases applied.rows[index]? <;> rfl
  | error error =>
      dsimp only
      cases (typed.failRow index (.inDefinition error)).rows[index]? <;> rfl

namespace IsConsistent

theorem insertRow
    (consistent : IsConsistent start present (fun _ => False) sheet)
    (index : Nat) :
    IsConsistent start present (fun _ => False) (sheet.insertRow index).2 := by
  unfold Worksheet.insertRow
  dsimp only
  generalize isPlace : min index sheet.rows.length = place
  obtain ⟨notTaken, definable⟩ := isTaken_freeName sheet (place + 1)
  obtain ⟨notContained, notRow⟩ := isTaken_eq_false_iff.mp notTaken
  obtain ⟨notBuiltin, undefined⟩ :=
    Environment.contains_eq_false_iff.mp notContained
  generalize sheet.freeName (place + 1) = name at *
  have newNames : names { sheet with
      rows := sheet.rows.insertIdx place (Row.empty name) } =
        sheet.names.insertIdx place name :=
    List.map_insertIdx ..
  have inRange : place ≤ sheet.names.length := by
    rw [names, List.length_map]
    omega
  have reordered := List.perm_insertIdx name sheet.names inRange
  refine
    { distinct := ?_
      definable := fun other member => ?_
      kept := consistent.kept
      apart := fun given isGiven member => ?_
      accounted := fun other isDefined => ?_
      keepsApart := fun isClosed other definition notOther found target
        refers => ?_
      settled := fun other row found _ => ?_ }
  · rw [newNames]
    exact reordered.nodup_iff.mpr
      (List.nodup_cons.mpr ⟨notRow, consistent.distinct⟩)
  · rw [newNames, reordered.mem_iff, List.mem_cons] at member
    rcases member with rfl | isRow
    · exact definable
    · exact consistent.definable other isRow
  · rw [newNames, reordered.mem_iff, List.mem_cons] at member
    rcases member with isNew | isRow
    · obtain ⟨definition, isDefinition⟩ :=
        Option.ne_none_iff_exists'.mp isGiven
      obtain ⟨current, isCurrent, -⟩ :=
        consistent.kept given definition isDefinition
      rw [isNew, undefined] at isCurrent
      contradiction
    · exact consistent.apart given isGiven isRow
  · rw [newNames, reordered.mem_iff, List.mem_cons]
    exact (consistent.accounted other isDefined).imp id .inr
  · rw [newNames, reordered.mem_iff, List.mem_cons, not_or] at notOther ⊢
    obtain ⟨isDefined, notTarget⟩ := consistent.keepsApart isClosed other
      definition notOther.2 found target refers
    refine ⟨isDefined, ?_, notTarget⟩
    rintro rfl
    exact isDefined undefined
  · have member := List.mem_of_getElem? found
    rw [(List.perm_insertIdx _ _ (by simpa [names] using inRange)).mem_iff,
      List.mem_cons] at member
    rcases member with rfl | isRow
    · exact ⟨Environment.definition?_eq_none_iff.mpr ⟨notBuiltin, undefined⟩,
        fun formula isFormula => by cases isFormula⟩
    · obtain ⟨place, found⟩ := List.getElem?_of_mem isRow
      exact consistent.settled place row found id

/-- The names of the definitions from the start matter only as far as there
are such definitions. -/
theorem congr_present {second : Text → Text}
    (consistent : IsConsistent start present pending sheet)
    (same : ∀ given, start.userDefinition? given ≠ none →
      present given = second given) :
    IsConsistent start second pending sheet where
  distinct := consistent.distinct
  definable := consistent.definable
  kept given definition isGiven := by
    rw [← same given (by simp [isGiven])]
    exact consistent.kept given definition isGiven
  apart given isGiven := by
    rw [← same given isGiven]
    exact consistent.apart given isGiven
  accounted name isDefined :=
    (consistent.accounted name isDefined).imp
      (fun ⟨given, isGiven, isName⟩ =>
        ⟨given, isGiven, by rw [← same given isGiven, isName]⟩) id
  keepsApart := consistent.keepsApart
  settled := consistent.settled

/-- Only one row carries a name, and so renaming it relabels all rows. -/
theorem modify_name_eq (consistent : IsConsistent start present pending sheet)
    {index : Nat} {row : Row} (found : sheet.rows[index]? = some row)
    {old : Text} (isOld : row.name = old) (new : Text) :
    (sheet.rows.modify index fun row => { row with name := new }) =
      sheet.rows.map (Row.relabel old new) := by
  refine List.ext_getElem? fun other => ?_
  rw [List.getElem?_modify, List.getElem?_map]
  cases foundOther : sheet.rows[other]? with
  | none => rfl
  | some otherRow =>
      by_cases same : index = other
      · subst same
        rw [found] at foundOther
        cases foundOther
        simp [Row.relabel, isOld]
      · have differs : otherRow.name ≠ old :=
          isOld ▸ consistent.name_ne foundOther found (Ne.symm same)
        simp [same, Row.relabel, Expression.renameName_of_ne differs]

theorem map_relabel_of_not_mem {old : Text} (notRow : old ∉ sheet.names)
    (new : Text) : sheet.rows.map (Row.relabel old new) = sheet.rows := by
  calc sheet.rows.map (Row.relabel old new)
      = sheet.rows.map id := by
        refine List.map_congr_left fun row member => ?_
        have differs : row.name ≠ old := fun same =>
          notRow (same ▸ List.mem_map_of_mem member)
        simp [Row.relabel, Expression.renameName_of_ne differs]
    _ = sheet.rows := List.map_id _

/-- A renaming that succeeds relabels the rows and follows the mentions. -/
theorem rename_eq_ok (consistent : IsConsistent start present pending sheet)
    {old new : Text} (differs : old ≠ new)
    (renames : sheet.rename old new = .ok renamed) :
    sheet.checkName new = .ok () ∧ ∃ environment,
      sheet.renameDefinition old new = .ok environment ∧
        renamed = (Worksheet.mk environment
          (sheet.rows.map (Row.relabel old new))).propagateRename
            old new none := by
  rw [Worksheet.rename, if_neg differs] at renames
  dsimp only at renames
  split at renames
  · contradiction
  obtain ⟨available, renames⟩ := check_bind_eq_ok_iff.mp renames
  obtain ⟨environment, renamesDefinition, renames⟩ := bind_eq_ok_iff.mp renames
  refine ⟨available, environment, renamesDefinition, ?_⟩
  cases renames
  congr 1
  split
  next index owner =>
      obtain ⟨inRange, isOld, -⟩ :=
        List.findIdx?_eq_some_iff_getElem.mp owner
      rw [← consistent.modify_name_eq (List.getElem?_eq_getElem inRange)
        (by simpa using isOld) new]
      rfl
  next noOwner =>
      rw [map_relabel_of_not_mem]
      simpa [names] using noOwner

/-- The same for the row under the edit, whose own body is left alone. -/
theorem renameRow_eq_ok (consistent : IsConsistent start present pending sheet)
    {index : Nat} {row : Row} (found : sheet.rows[index]? = some row)
    {new : Text}
    (renames : sheet.renameRow index row.name new = .ok renamed) :
    sheet.checkName new = .ok () ∧ ∃ environment,
      sheet.renameDefinition row.name new = .ok environment ∧
        renamed = (Worksheet.mk environment
          (sheet.rows.map (Row.relabel row.name new))).propagateRename
            row.name new (some index) := by
  obtain ⟨available, renames⟩ := check_bind_eq_ok_iff.mp renames
  obtain ⟨environment, renamesDefinition, renames⟩ := bind_eq_ok_iff.mp renames
  refine ⟨available, environment, renamesDefinition, ?_⟩
  cases renames
  rw [← consistent.modify_name_eq found rfl new]
  rfl

theorem rename
    (consistent : IsConsistent start present (fun _ => False) sheet)
    {old new : Text} (renames : sheet.rename old new = .ok renamed) :
    IsConsistent start
      (fun given => Expression.renameName old new (present given))
      (fun _ => False) renamed := by
  by_cases differs : old = new
  · rw [Worksheet.rename, if_pos differs] at renames
    cases renames
    subst differs
    exact consistent.congr_present fun given _ => by simp
  · obtain ⟨available, environment, renamesDefinition, rfl⟩ :=
      consistent.rename_eq_ok differs renames
    exact (consistent.relabel differs available
      renamesDefinition).propagateRename differs (by simp)

/-- Renaming a row leaves alone the names of the definitions that were there at
the start. -/
theorem of_renamed_row {old new : Text}
    (consistent : IsConsistent start present pending sheet)
    (isRow : old ∈ sheet.names) {later : Nat → Prop}
    (after : IsConsistent start
      (fun given => Expression.renameName old new (present given))
      later renamed) :
    IsConsistent start present later renamed := by
  refine after.congr_present fun given isGiven => ?_
  refine Expression.renameName_of_ne ?_
  rintro rfl
  exact consistent.apart given isGiven isRow

/-- The row under the edit waits while the other rows follow its new name. -/
theorem renameRow {index : Nat} {row : Row}
    (consistent : IsConsistent start present (fun other => other = index) sheet)
    (found : sheet.rows[index]? = some row) {new : Text}
    (differs : row.name ≠ new)
    (renames : sheet.renameRow index row.name new = .ok renamed) :
    IsConsistent start present (fun other => other = index) renamed := by
  obtain ⟨available, environment, renamesDefinition, rfl⟩ :=
    consistent.renameRow_eq_ok found renames
  have relabeled := consistent.relabel differs available renamesDefinition
  have skips : ∀ other, some index = some other → other = index := by simp
  exact consistent.of_renamed_row (name_mem found)
    (relabeled.propagateRename differs skips)

theorem applyText {index : Nat} {row : Row}
    (consistent : IsConsistent start present (fun other => other = index) sheet)
    (found : sheet.rows[index]? = some row) {text : Text} {applied : Worksheet}
    (applies : sheet.applyText index row.name text = .ok applied) :
    IsConsistent start present (fun _ => False) applied := by
  obtain ⟨reading, -, applies⟩ := bind_eq_ok_iff.mp applies
  obtain ⟨renamed, renames, applies⟩ := bind_eq_ok_iff.mp applies
  cases applies
  have consistentRenamed :
      IsConsistent start present (fun other => other = index) renamed := by
    unfold applyName at renames
    split at renames
    next =>
        cases renames
        exact consistent
    next new _ =>
        split at renames
        next =>
            cases renames
            exact consistent
        next differs =>
            exact consistent.renameRow found (Ne.symm differs) renames
  have placed := consistentRenamed.modifyRow index
    (Row.withBody reading.body reading.offset) fun row => rfl
  refine (placed.recompile index).mono ?_
  rintro other ⟨isIndex | isIndex, notIndex⟩
  · exact notIndex isIndex
  · exact notIndex isIndex

theorem refreshDependents
    (consistent : IsConsistent start present (fun _ => False) sheet)
    (name : Text) (skipped : Option Nat) :
    IsConsistent start present (fun _ => False)
      (sheet.refreshDependents name skipped) :=
  (consistent.recompileAll _).mono fun _ isPending => isPending.1

theorem retype
    (consistent : IsConsistent start present (fun _ => False) sheet)
    {index : Nat} {row : Row} (found : sheet.rows[index]? = some row)
    (text : Text) :
    IsConsistent start present (fun _ => False)
      (sheet.retype index row.name text) := by
  have typed : IsConsistent start present (fun other => other = index)
      (sheet.modifyRow index (Row.withText text)) :=
    (consistent.modifyRow index (Row.withText text) fun row => rfl).mono
      fun other isPending => isPending.resolve_left id
  have foundTyped : (sheet.modifyRow index (Row.withText text)).rows[index]? =
      some (row.withText text) := by
    rw [getElem?_modifyRow, found]
    simp
  unfold Worksheet.retype
  dsimp only
  split
  next applied applies => exact typed.applyText foundTyped applies
  next error _ =>
      exact (typed.failRow index _).mono fun other isPending =>
        isPending.2 isPending.1

theorem edit
    (consistent : IsConsistent start present (fun _ => False) sheet)
    (index : Nat) (text : Text) :
    IsConsistent start present (fun _ => False)
      (sheet.perform (.edit index text)) := by
  rw [Worksheet.perform]
  cases found : sheet.rows[index]? with
  | none =>
      rw [edit?, found]
      exact consistent
  | some row =>
      have retyped := consistent.retype found text
      rw [edit?_eq found]
      cases (sheet.retype index row.name text).rows[index]? with
      | none => exact retyped
      | some current => exact retyped.refreshDependents _ _

theorem removeFirst
    (consistent : IsConsistent start present (fun _ => False) sheet)
    {index : Nat} {row : Row} (found : sheet.rows[index]? = some row) :
    IsConsistent start present (fun _ => False)
      ⟨(sheet.environment.remove row.name).2, sheet.rows.eraseIdx index⟩ := by
  have newNames : names ⟨(sheet.environment.remove row.name).2,
      sheet.rows.eraseIdx index⟩ = sheet.names.eraseIdx index :=
    (List.eraseIdx_map ..).symm
  have subset := (List.eraseIdx_sublist sheet.names index).subset
  have remains {name : Text} (member : name ∈ sheet.names)
      (differs : name ≠ row.name) : name ∈ sheet.names.eraseIdx index := by
    obtain ⟨place, foundPlace⟩ := List.getElem?_of_mem member
    rw [List.mem_eraseIdx_iff_getElem?]
    refine ⟨place, ?_, foundPlace⟩
    rintro rfl
    rw [names, List.getElem?_map, found] at foundPlace
    exact differs (Option.some.inj foundPlace).symm
  refine
    { distinct := ?_
      definable := fun name member => ?_
      kept := fun given definition isGiven => ?_
      apart := fun given isGiven member => ?_
      accounted := fun name isDefined => ?_
      keepsApart := fun isClosed name definition notRow isDefinition target
        refers => ?_
      settled := fun other otherRow foundOther _ => ?_ }
  · rw [newNames]
    exact consistent.distinct.sublist (List.eraseIdx_sublist ..)
  · exact consistent.definable name (subset (newNames ▸ member))
  · obtain ⟨current, isCurrent, renamed⟩ :=
      consistent.kept given definition isGiven
    refine ⟨current, ?_, renamed⟩
    rw [Environment.userDefinition?_remove_of_ne, isCurrent]
    intro same
    exact consistent.apart given (by simp [isGiven]) (same ▸ name_mem found)
  · exact consistent.apart given isGiven (subset (newNames ▸ member))
  · rw [Environment.userDefinition?_remove] at isDefined
    rw [newNames]
    by_cases same : name = row.name
    · simp [same] at isDefined
    · simp only [same, if_false] at isDefined
      exact (consistent.accounted name isDefined).imp id fun member =>
        remains member same
  · rw [Environment.userDefinition?_remove, Option.ite_none_left_eq_some]
      at isDefinition
    obtain ⟨differs, isDefinition⟩ := isDefinition
    rw [newNames] at notRow ⊢
    obtain ⟨isDefined, notTarget⟩ := consistent.keepsApart isClosed name
      definition (fun member => notRow (remains member differs)) isDefinition
      target refers
    refine ⟨?_, fun member => notTarget (subset member)⟩
    rwa [Environment.userDefinition?_remove_of_ne]
    rintro rfl
    exact notTarget (name_mem found)
  · obtain ⟨place, differs, foundPlace⟩ := List.mem_eraseIdx_iff_getElem?.mp
      (List.mem_of_getElem? foundOther)
    refine (consistent.settled place otherRow foundPlace id).congr ?_
    exact Environment.userDefinition?_remove_of_ne
      (consistent.name_ne foundPlace found differs) _

theorem moveDown
    (consistent : IsConsistent start present (fun _ => False) sheet)
    (index : Nat) :
    IsConsistent start present (fun _ => False) (sheet.moveDown index) := by
  unfold Worksheet.moveDown
  dsimp only
  split
  next isDefault =>
      split
      next renamed renames =>
          obtain ⟨row, found, isName⟩ := Option.map_eq_some_iff.mp isDefault
          exact consistent.of_renamed_row (isName ▸ name_mem found)
            (consistent.rename renames)
      next => exact consistent
  next => exact consistent

/-- A removal ends with a pass over the rows that depended on the row. -/
theorem exists_perform_removeRow_eq
    (consistent : IsConsistent start present (fun _ => False) sheet)
    {index : Nat} {removed : Row} (found : sheet.rows[index]? = some removed) :
    ∃ moved, IsConsistent start present (fun _ => False) moved ∧
      sheet.perform (.removeRow index) =
        moved.refreshDependents removed.name none := by
  have movedAll (places : List Nat) {first : Worksheet}
      (consistentFirst : IsConsistent start present (fun _ => False) first) :
      IsConsistent start present (fun _ => False)
        (places.foldl Worksheet.moveDown first) := by
    induction places generalizing first with
    | nil => exact consistentFirst
    | cons place rest ih => exact ih (consistentFirst.moveDown place)
  refine ⟨_, movedAll
    (List.range' index ((sheet.rows.eraseIdx index).length - index))
    (consistent.removeFirst found), ?_⟩
  rw [Worksheet.perform, removeRow?, found]
  rfl

theorem removeRow
    (consistent : IsConsistent start present (fun _ => False) sheet)
    (index : Nat) :
    IsConsistent start present (fun _ => False)
      (sheet.perform (.removeRow index)) := by
  cases found : sheet.rows[index]? with
  | none =>
      rw [Worksheet.perform, removeRow?, found]
      exact consistent
  | some removed =>
      obtain ⟨moved, consistentMoved, removes⟩ :=
        consistent.exists_perform_removeRow_eq found
      rw [removes]
      exact consistentMoved.refreshDependents _ _

theorem setEnabled
    (consistent : IsConsistent start present (fun _ => False) sheet)
    {index : Nat} {isEnabled : Bool} {changed : Worksheet}
    (changes : sheet.setEnabled? index isEnabled = some changed) :
    IsConsistent start present (fun _ => False) changed := by
  rw [setEnabled?, Option.map_eq_some_iff] at changes
  obtain ⟨row, found, rfl⟩ := changes
  refine consistent.withRows rfl (names_modifyRow index fun row => rfl)
    fun other otherRow foundOther _ => ?_
  rw [getElem?_modifyRow, Option.map_eq_some_iff] at foundOther
  obtain ⟨before, foundBefore, rfl⟩ := foundOther
  have settled := consistent.settled other before foundBefore id
  split
  next => exact ⟨settled.agrees, settled.mentioned⟩
  next => exact settled

/-- Every operation keeps a worksheet consistent. -/
theorem perform
    (consistent : IsConsistent start present (fun _ => False) sheet)
    (operation : Operation) :
    IsConsistent start (fun given => sheet.nameAfter operation (present given))
      (fun _ => False) (sheet.perform operation) := by
  cases operation with
  | pushRow => exact consistent.insertRow _
  | insertRow index => exact consistent.insertRow index
  | edit index text => exact consistent.edit index text
  | rename old new =>
      cases renames : sheet.rename old new with
      | error error =>
          simpa only [Worksheet.perform, nameAfter, renames] using consistent
      | ok renamed =>
          simpa only [Worksheet.perform, nameAfter, renames] using
            consistent.rename renames
  | removeRow index => exact consistent.removeRow index
  | setEnabled index isEnabled =>
      rw [Worksheet.perform]
      cases changes : sheet.setEnabled? index isEnabled with
      | none => exact consistent
      | some changed => exact consistent.setEnabled changes

theorem performAll
    (consistent : IsConsistent start present (fun _ => False) sheet)
    (operations : List Operation) :
    IsConsistent start
      (fun given => sheet.nameAfterAll operations (present given))
      (fun _ => False) (sheet.performAll operations) := by
  induction operations generalizing present sheet with
  | nil => exact consistent
  | cons operation rest ih => exact ih (consistent.perform operation)

/-- A settled row has a definition exactly if it compiled. -/
theorem userDefinition?_ne_none_iff
    (consistent : IsConsistent start present (fun _ => False) sheet)
    {row : Row} (member : row ∈ sheet.rows) :
    sheet.environment.userDefinition? row.name ≠ none ↔
      row.formula? ≠ none := by
  obtain ⟨index, found⟩ := List.getElem?_of_mem member
  have agrees := (consistent.settled index row found id).agrees
  have notBuiltin := (consistent.definable _ (name_mem found)).not_builtin
  unfold Row.Agrees at agrees
  rw [Environment.definition?_of_not_builtin notBuiltin] at agrees
  cases isState : row.state with
  | blank | failed error =>
      simp only [isState, Option.map_eq_none_iff] at agrees
      simp [Row.formula?, isState, agrees]
  | compiled formula =>
      simp only [isState] at agrees
      have isDefined : sheet.environment.userDefinition? row.name ≠ none := by
        intro undefined
        simp [undefined] at agrees
      simpa [Row.formula?, isState] using isDefined

end IsConsistent

/-- After every run each row agrees with the definition under its name, and the
definitions are those of the rows that compiled, next to those that were there
at the start.  The latter are neither removed nor overwritten: they are found
under their present names, and only names in them have changed. -/
theorem agrees_performAll (start : Environment)
    (operations : List Operation) :
    let sheet := (ofEnvironment start).performAll operations
    let presentName := (ofEnvironment start).nameAfterAll operations
    (∀ row ∈ sheet.rows, row.Agrees sheet.environment) ∧
      (∀ name, sheet.environment.userDefinition? name ≠ none ↔
        (∃ row ∈ sheet.rows, row.name = name ∧ row.formula? ≠ none) ∨
          ∃ given, start.userDefinition? given ≠ none ∧
            presentName given = name) ∧
        ∀ given definition, start.userDefinition? given = some definition →
          (∀ row ∈ sheet.rows, row.name ≠ presentName given) ∧
            ∃ current,
              sheet.environment.userDefinition? (presentName given) =
                  some current ∧ definition.IsRenamed current := by
  intro sheet presentName
  have consistent :
      IsConsistent start presentName (fun _ => False) sheet :=
    (isConsistent_ofEnvironment start).performAll operations
  refine ⟨fun row member => ?_, fun name => ⟨fun isDefined => ?_, ?_⟩,
    fun given definition isGiven => ⟨fun row member same => ?_,
      consistent.kept given definition isGiven⟩⟩
  · obtain ⟨index, found⟩ := List.getElem?_of_mem member
    exact (consistent.settled index row found id).agrees
  · rcases consistent.accounted name isDefined with isGiven | isRow
    · exact .inr isGiven
    · obtain ⟨row, member, rfl⟩ := List.mem_map.mp isRow
      exact .inl ⟨row, member, rfl,
        (consistent.userDefinition?_ne_none_iff member).mp isDefined⟩
  · rintro (⟨row, member, rfl, isCompiled⟩ | ⟨given, isGiven, rfl⟩)
    · exact (consistent.userDefinition?_ne_none_iff member).mpr isCompiled
    · obtain ⟨definition, isDefinition⟩ :=
        Option.ne_none_iff_exists'.mp isGiven
      obtain ⟨current, isCurrent, -⟩ :=
        consistent.kept given definition isDefinition
      simp [isCurrent]
  · exact consistent.apart given (by simp [isGiven])
      (same ▸ List.mem_map_of_mem member)

end Worksheet
end GraphingCalculator
