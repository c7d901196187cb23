import GraphingCalculator.Proofs.Worksheet.Typing

/-!
# What an edit leaves alone

An edit renames mentions and compiles rows all over the worksheet, and it may
fail at any point on the way.  Whatever it does, it stays within the names that
are connected to the edited row: its names before and after the edit, and the
names of the rows that mention a connected name.  Every step of an edit keeps
the rows outside of such a set of names and their definitions, and so does the
edit.
-/

namespace GraphingCalculator

namespace Row

@[simp]
theorem isEnabled_renameIdentifiers (old new : Text) (row : Row) :
    (row.renameIdentifiers old new).isEnabled = row.isEnabled := by
  unfold renameIdentifiers
  dsimp only
  split <;> rfl

/-- A row that mentions a name nowhere is not changed by its renaming. -/
theorem renameIdentifiers_of_not_mentions {old : Text} {row : Row}
    (notInText : mentions row.text old = false)
    (notInBody : mentions row.body old = false) (new : Text) :
    row.renameIdentifiers old new = row := by
  rw [renameIdentifiers, renameIdentifier_of_not_mentions notInText,
    renameIdentifier_of_not_mentions notInBody]
  exact if_pos rfl

theorem result_state_eq_ok_iff {row : Row} :
    row.state.result = .ok () ↔ row.error? = none := by
  unfold State.result error?
  cases row.state <;> simp

theorem result_state_eq_error_iff {row : Row} {error : CalculationError} :
    row.state.result = .error error ↔ row.error? = some error := by
  unfold State.result error?
  cases row.state <;> simp

end Row

namespace Worksheet

variable {start : Environment} {present : Text → Text}
variable {pending : Nat → Prop} {reached : Text → Prop}
variable {sheet middle later : Worksheet} {index : Nat}

/-- What a step of an edit leaves alone: the order of the rows and what is
enabled, the names of the rows that are not edited, and the rows whose names are
not reached, together with their definitions. -/
structure IsContained (reached : Text → Prop) (index : Nat)
    (sheet later : Worksheet) : Prop where
  enabled : later.rows.map Row.isEnabled = sheet.rows.map Row.isEnabled
  names : ∀ other : Nat, other ≠ index →
    later.names[other]? = sheet.names[other]?
  rows : ∀ (other : Nat) (row : Row), sheet.rows[other]? = some row →
    ¬ reached row.name → later.rows[other]? = some row
  definitions : ∀ row ∈ sheet.rows, ¬ reached row.name →
    later.environment.userDefinition? row.name =
      sheet.environment.userDefinition? row.name

/-- The edited row is reached, and so is every other row that mentions a name
that is reached. -/
structure IsReachClosed (reached : Text → Prop) (index : Nat)
    (sheet : Worksheet) : Prop where
  own : ∀ name, sheet.names[index]? = some name → reached name
  mentioned : ∀ (other : Nat) (row : Row) (name : Text), other ≠ index →
    sheet.rows[other]? = some row →
      mentions row.text name = true ∨ mentions row.body name = true →
        reached name → reached row.name

namespace IsContained

theorem refl (reached : Text → Prop) (index : Nat) (sheet : Worksheet) :
    IsContained reached index sheet sheet :=
  ⟨rfl, fun _ _ => rfl, fun _ _ found _ => found, fun _ _ _ => rfl⟩

theorem trans (first : IsContained reached index sheet middle)
    (second : IsContained reached index middle later) :
    IsContained reached index sheet later where
  enabled := second.enabled.trans first.enabled
  names other notIndex :=
    (second.names other notIndex).trans (first.names other notIndex)
  rows other row found notReached :=
    second.rows other row (first.rows other row found notReached) notReached
  definitions row member notReached := by
    obtain ⟨other, found⟩ := List.getElem?_of_mem member
    have stillMember :=
      List.mem_of_getElem? (first.rows other row found notReached)
    rw [second.definitions row stillMember notReached,
      first.definitions row member notReached]

/-- The definitions change, as far as their names are reached. -/
theorem of_definitions {environment : Environment}
    (definitions : ∀ row ∈ sheet.rows, ¬ reached row.name →
      environment.userDefinition? row.name =
        sheet.environment.userDefinition? row.name) :
    IsContained reached index sheet ⟨environment, sheet.rows⟩ :=
  ⟨rfl, fun _ _ => rfl, fun _ _ found _ => found, definitions⟩

/-- The rows that are not reached mention the same names as before. -/
theorem isReachClosed (contained : IsContained reached index sheet later)
    (closed : IsReachClosed reached index sheet)
    (own : ∀ name, later.names[index]? = some name → reached name) :
    IsReachClosed reached index later := by
  refine ⟨own, fun other row name notIndex found mentioned isReached => ?_⟩
  by_contra notReached
  have sameName := contained.names other notIndex
  rw [getElem?_names found] at sameName
  obtain ⟨before, foundBefore, isName⟩ : ∃ before,
      sheet.rows[other]? = some before ∧ before.name = row.name := by
    rw [eq_comm, Worksheet.names, List.getElem?_map,
      Option.map_eq_some_iff] at sameName
    exact sameName
  have unchanged :=
    contained.rows other before foundBefore (isName ▸ notReached)
  obtain rfl : before = row := Option.some.inj (unchanged.symm.trans found)
  exact notReached
    (closed.mentioned other before name notIndex foundBefore mentioned
      isReached)

end IsContained

namespace IsReachClosed

/-- A row that is not reached is not the edited one. -/
theorem ne_of_not_reached (closed : IsReachClosed reached index sheet)
    {other : Nat} {row : Row} (found : sheet.rows[other]? = some row)
    (notReached : ¬ reached row.name) : other ≠ index := by
  rintro rfl
  exact notReached (closed.own row.name (getElem?_names found))

theorem not_mentions (closed : IsReachClosed reached index sheet)
    {other : Nat} {row : Row} {name : Text}
    (found : sheet.rows[other]? = some row) (notReached : ¬ reached row.name)
    (isReached : reached name) :
    mentions row.text name = false ∧ mentions row.body name = false := by
  have notIndex := closed.ne_of_not_reached found notReached
  refine ⟨?_, ?_⟩
  · rw [← Bool.not_eq_true]
    exact fun mentioned => notReached
      (closed.mentioned other row name notIndex found (.inl mentioned)
        isReached)
  · rw [← Bool.not_eq_true]
    exact fun mentioned => notReached
      (closed.mentioned other row name notIndex found (.inr mentioned)
        isReached)

/-- The edited row changes. -/
theorem isContained_modifyRow (closed : IsReachClosed reached index sheet)
    (change : Row → Row)
    (keepsEnabled : ∀ row, (change row).isEnabled = row.isEnabled) :
    IsContained reached index sheet (sheet.modifyRow index change) where
  enabled := by
    refine List.ext_getElem? fun other => ?_
    rw [List.getElem?_map, List.getElem?_map, getElem?_modifyRow]
    cases sheet.rows[other]? with
    | none => rfl
    | some row => by_cases same : index = other <;> simp [same, keepsEnabled]
  names other notIndex := by
    rw [names, names, List.getElem?_map, List.getElem?_map, getElem?_modifyRow]
    simp [Ne.symm notIndex]
  rows other row found notReached := by
    have notIndex := closed.ne_of_not_reached found notReached
    rw [getElem?_modifyRow, found]
    simp [Ne.symm notIndex]
  definitions row _ _ := rfl

/-- Rows are compiled whose names are reached. -/
theorem isContained_recompileAll {indices : List Nat}
    (areReached : ∀ other ∈ indices, ∀ row : Row, sheet.rows[other]? = some row →
      reached row.name) :
    IsContained reached index sheet (indices.foldl recompile sheet) where
  enabled := by
    have same := congrArg (List.map Row.isEnabled)
      (outline_recompileAll sheet indices)
    rwa [List.map_map, List.map_map] at same
  names other _ := by
    rw [names_of_outline (outline_recompileAll sheet indices)]
  rows other row found notReached := by
    rw [getElem?_recompileAll, found]
    exact fun member => notReached (areReached other member row found)
  definitions row _ notReached := by
    by_contra changes
    obtain ⟨other, member, compiled, found, isName⟩ :=
      exists_compiled_of_userDefinition?_ne changes
    exact notReached (isName ▸ areReached other member compiled found)

/-- The edited row is compiled. -/
theorem isContained_recompile (closed : IsReachClosed reached index sheet) :
    IsContained reached index sheet (sheet.recompile index) := by
  have isOwn : ∀ other ∈ [index], ∀ row : Row,
      sheet.rows[other]? = some row → reached row.name := by
    intro other member row found
    obtain rfl := List.mem_singleton.mp member
    exact closed.own row.name (getElem?_names found)
  exact isContained_recompileAll isOwn

theorem failRow_eq {row : Row} (found : sheet.rows[index]? = some row)
    (error : CalculationError) :
    sheet.failRow index error =
      modifyRow ⟨(sheet.environment.remove row.name).2, sheet.rows⟩ index
        fun row => { row with state := .failed error } := by
  rw [failRow, found, modifyRow, List.modify_eq_set_getElem?, found]
  rfl

/-- The edited row fails, and its definition is taken away. -/
theorem isContained_failRow (closed : IsReachClosed reached index sheet)
    (error : CalculationError) :
    IsContained reached index sheet (sheet.failRow index error) := by
  cases found : sheet.rows[index]? with
  | none =>
      rw [failRow, found]
      exact .refl reached index sheet
  | some row =>
      have removes : IsContained reached index sheet
          ⟨(sheet.environment.remove row.name).2, sheet.rows⟩ := by
        refine .of_definitions fun other _ notReached => ?_
        refine Environment.userDefinition?_remove_of_ne ?_ _
        intro same
        exact notReached (same ▸ closed.own row.name (getElem?_names found))
      have stillClosed := removes.isReachClosed closed closed.own
      rw [failRow_eq found]
      exact removes.trans (stillClosed.isContained_modifyRow _ fun row => rfl)

/-- Mentions of a name that is reached are replaced in the other rows. -/
theorem isContained_rewrite (closed : IsReachClosed reached index sheet)
    {old : Text} (isReached : reached old) (new : Text) :
    IsContained reached index sheet
      (sheet.rewrite old new (some index)) where
  enabled := by
    refine List.ext_getElem? fun other => ?_
    rw [rewrite, List.getElem?_map, List.getElem?_map, List.getElem?_mapIdx]
    cases sheet.rows[other]? with
    | none => rfl
    | some row =>
        by_cases same : index = other <;>
          simp [same, Row.isEnabled_renameIdentifiers]
  names other _ := by rw [names_rewrite]
  rows other row found notReached := by
    obtain ⟨notInText, notInBody⟩ :=
      closed.not_mentions found notReached isReached
    have notIndex := closed.ne_of_not_reached found notReached
    rw [rewrite, List.getElem?_mapIdx, found, Option.map_some,
      if_neg (by simpa using Ne.symm notIndex),
      Row.renameIdentifiers_of_not_mentions notInText notInBody]
  definitions row _ _ := rfl

/-- A row that a renaming rewrites mentions the old name. -/
theorem reached_of_mem_rewritten (closed : IsReachClosed reached index sheet)
    {old new : Text} (isReached : reached old) {other : Nat}
    (member : other ∈ sheet.rewritten old new (some index)) {row : Row}
    (found : sheet.rows[other]? = some row) : reached row.name := by
  by_contra notReached
  obtain ⟨notInText, notInBody⟩ :=
    closed.not_mentions found notReached isReached
  obtain ⟨⟨before, place⟩, isEntry, rfl⟩ := List.mem_map.mp member
  obtain ⟨isEntry, isChanged⟩ := List.mem_filter.mp isEntry
  rw [List.mem_zipIdx_iff_getElem?] at isEntry
  obtain rfl : before = row := Option.some.inj (isEntry.symm.trans found)
  dsimp only at isChanged
  rw [Row.renameIdentifiers_of_not_mentions notInText notInBody, ite_self,
    decide_eq_true_iff] at isChanged
  exact isChanged rfl

/-- The rows are compiled whose mentions were replaced. -/
theorem isContained_propagateRename
    (closed : IsReachClosed reached index sheet) {old : Text}
    (isReached : reached old) (new : Text) :
    IsContained reached index sheet
      (sheet.propagateRename old new (some index)) := by
  rw [propagateRename_eq]
  refine (closed.isContained_rewrite isReached new).trans
    (isContained_recompileAll fun other member row found => ?_)
  have sameName : sheet.names[other]? = some row.name := by
    rw [← names_rewrite sheet old new (some index), getElem?_names found]
  rw [names, List.getElem?_map, Option.map_eq_some_iff] at sameName
  obtain ⟨before, foundBefore, isName⟩ := sameName
  exact isName ▸ closed.reached_of_mem_rewritten isReached member foundBefore

theorem reached_of_mentionsAt (closed : IsReachClosed reached index sheet)
    {other : Nat} (notSkipped : some index ≠ some other) {name : Text}
    (mentioned : sheet.MentionsAt name other) (isReached : reached name)
    {row : Row} (found : sheet.rows[other]? = some row) :
    reached row.name := by
  obtain ⟨same, foundSame, mentioned⟩ := mentioned
  obtain rfl : same = row := Option.some.inj (foundSame.symm.trans found)
  have notIndex : other ≠ index := by simpa using notSkipped.symm
  exact closed.mentioned other same name notIndex found (.inr mentioned)
    isReached

/-- A row that depends on a name that is reached is reached itself. -/
theorem reached_of_isDependent (closed : IsReachClosed reached index sheet)
    {name : Text} (isReached : reached name) {other : Nat}
    (depends : sheet.IsDependent name (some index) other) {row : Row}
    (found : sheet.rows[other]? = some row) : reached row.name := by
  induction depends generalizing row with
  | direct notSkipped mentioned =>
      exact closed.reached_of_mentionsAt notSkipped mentioned isReached found
  | through notSkipped refers _ ih =>
      obtain ⟨target, isTarget, mentioned⟩ := refers
      rw [names, List.getElem?_map, Option.map_eq_some_iff] at isTarget
      obtain ⟨targetRow, foundTarget, rfl⟩ := isTarget
      exact closed.reached_of_mentionsAt notSkipped mentioned (ih foundTarget)
        found

/-- The rows are compiled that depend on a name that is reached. -/
theorem isContained_refreshDependents
    (closed : IsReachClosed reached index sheet) {name : Text}
    (isReached : reached name) :
    IsContained reached index sheet
      (sheet.refreshDependents name (some index)) :=
  isContained_recompileAll fun _ member _ found =>
    closed.reached_of_isDependent isReached (mem_dependents_iff.mp member) found

end IsReachClosed

namespace IsConsistent

/-- A renaming of definitions keeps those of the rows that are not reached:
they do not refer to the old name. -/
theorem isContained_renameDefinition
    (consistent : IsConsistent start present (fun other => other = index) sheet)
    (closed : IsReachClosed reached index sheet) {old new : Text}
    (oldReached : reached old) (newReached : reached new) (differs : old ≠ new)
    (available : sheet.checkName new = .ok ()) {environment : Environment}
    (renames : sheet.renameDefinition old new = .ok environment) :
    IsContained reached index sheet ⟨environment, sheet.rows⟩ := by
  obtain ⟨⟨change, isChange, follows⟩, -⟩ :=
    renameDefinition_spec differs available renames
  refine .of_definitions fun row member notReached => ?_
  obtain ⟨other, found⟩ := List.getElem?_of_mem member
  have notOld : row.name ≠ old := fun same => notReached (same ▸ oldReached)
  have notNew : row.name ≠ new := fun same => notReached (same ▸ newReached)
  have settled := consistent.settled other row found
    (closed.ne_of_not_reached found notReached)
  have notMentioned := (closed.not_mentions found notReached oldReached).2
  have follows := follows row.name notNew
  rw [Expression.renameName_of_ne notOld] at follows
  rw [follows]
  rcases isChange with ⟨rfl, -⟩ | rfl
  · exact Option.map_id_apply
  · exact settled.map_renameReferences
      (consistent.definable _ (name_mem found)) notMentioned new

/-- The edited row gets another name, and the mentions follow. -/
theorem isContained_renameRow
    (consistent : IsConsistent start present (fun other => other = index) sheet)
    (closed : IsReachClosed reached index sheet) {old new : Text}
    (oldReached : reached old) (newReached : reached new) (differs : old ≠ new)
    (renames : sheet.renameRow index old new = .ok later) :
    IsContained reached index sheet later := by
  obtain ⟨available, renames⟩ := check_bind_eq_ok_iff.mp renames
  obtain ⟨environment, renamesDefinition, renames⟩ := bind_eq_ok_iff.mp renames
  cases renames
  have moves := consistent.isContained_renameDefinition closed oldReached
    newReached differs available renamesDefinition
  have movedClosed := moves.isReachClosed closed closed.own
  have relabels := movedClosed.isContained_modifyRow
    (fun row => { row with name := new }) fun row => rfl
  have relabeledClosed := relabels.isReachClosed movedClosed <| by
    intro name isName
    rw [names, List.getElem?_map, getElem?_modifyRow, Option.map_map,
      Option.map_eq_some_iff] at isName
    obtain ⟨row, -, rfl⟩ := isName
    simpa using newReached
  exact (moves.trans relabels).trans
    (relabeledClosed.isContained_propagateRename oldReached new)

end IsConsistent

/-- The edited row carries its new name. -/
theorem getElem?_names_renameRow {row : Row} {old new : Text}
    (found : sheet.rows[index]? = some row)
    (renames : sheet.renameRow index old new = .ok later) :
    later.names[index]? = some new := by
  obtain ⟨-, renames⟩ := check_bind_eq_ok_iff.mp renames
  obtain ⟨environment, -, renames⟩ := bind_eq_ok_iff.mp renames
  cases renames
  rw [propagateRename_eq, names_of_outline (outline_recompileAll _ _),
    names_rewrite, names, List.getElem?_map, getElem?_modifyRow]
  simp [found]

namespace IsConsistent

theorem isContained_applyName
    (consistent : IsConsistent start present (fun other => other = index) sheet)
    (closed : IsReachClosed reached index sheet) {row : Row}
    (found : sheet.rows[index]? = some row) {reading : Row.Reading}
    (renames : sheet.applyName index row.name reading = .ok later)
    (isReached : ∀ name, later.names[index]? = some name → reached name) :
    IsContained reached index sheet later := by
  unfold applyName at renames
  split at renames
  next =>
      cases renames
      exact .refl reached index sheet
  next new _ =>
      split at renames
      next =>
          cases renames
          exact .refl reached index sheet
      next differs =>
          exact consistent.isContained_renameRow closed
            (closed.own row.name (getElem?_names found))
            (isReached new (getElem?_names_renameRow found renames))
            (Ne.symm differs) renames

/-- A text is read, and its body is compiled. -/
theorem isContained_applyText
    (consistent : IsConsistent start present (fun other => other = index) sheet)
    (closed : IsReachClosed reached index sheet) {row : Row}
    (found : sheet.rows[index]? = some row) {text : Text}
    (applies : sheet.applyText index row.name text = .ok later)
    (isReached : ∀ name, later.names[index]? = some name → reached name) :
    IsContained reached index sheet later := by
  obtain ⟨reading, renamed, -, renames, rfl⟩ := exists_of_applyText applies
  have placedNames : (renamed.modifyRow index (Row.withBody reading.body
      reading.offset)).names = renamed.names :=
    names_modifyRow index fun row => rfl
  rw [names_of_outline (outline_recompile _ _), placedNames] at isReached
  have follows := consistent.isContained_applyName closed found renames
    isReached
  have renamedClosed := follows.isReachClosed closed isReached
  have places := renamedClosed.isContained_modifyRow
    (Row.withBody reading.body reading.offset) fun row => rfl
  have placedClosed :=
    places.isReachClosed renamedClosed (placedNames ▸ isReached)
  exact (follows.trans places).trans placedClosed.isContained_recompile

/-- The row is typed, or it fails. -/
theorem isContained_retype
    (consistent : IsConsistent start present (fun _ => False) sheet)
    (closed : IsReachClosed reached index sheet) {row : Row}
    (found : sheet.rows[index]? = some row) {text : Text}
    (isReached : ∀ name,
      (sheet.retype index row.name text).names[index]? = some name →
        reached name) :
    IsContained reached index sheet (sheet.retype index row.name text) := by
  have types := closed.isContained_modifyRow (Row.withText text) fun row => rfl
  have typedNames :
      (sheet.modifyRow index (Row.withText text)).names = sheet.names :=
    names_modifyRow index fun row => rfl
  have typedClosed := types.isReachClosed closed (typedNames ▸ closed.own)
  have typed : IsConsistent start present (fun other => other = index)
      (sheet.modifyRow index (Row.withText text)) :=
    (consistent.modifyRow index (Row.withText text) fun row => rfl).mono
      fun other isPending => isPending.resolve_left id
  have foundTyped := getElem?_modifyRow_self found (Row.withText text)
  refine types.trans ?_
  cases applies : (sheet.modifyRow index (Row.withText text)).applyText index
      row.name text with
  | ok applied =>
      rw [retype_of_ok applies] at isReached ⊢
      exact typed.isContained_applyText typedClosed foundTyped applies isReached
  | error error =>
      rw [retype_of_error applies]
      exact typedClosed.isContained_failRow _

/-- The edit stays within a set of names, if the set is closed and contains the
names of the row before the edit and after it. -/
theorem isContained_edit
    (consistent : IsConsistent start present (fun _ => False) sheet)
    (closed : IsReachClosed reached index sheet) {row current : Row}
    (found : sheet.rows[index]? = some row) {text : Text}
    (isCurrent :
      (sheet.retype index row.name text).rows[index]? = some current)
    (isReached : reached current.name) :
    IsContained reached index sheet
      ((sheet.retype index row.name text).refreshDependents current.name
        (some index)) := by
  have own (name : Text) (isName :
      (sheet.retype index row.name text).names[index]? = some name) :
      reached name := by
    rw [getElem?_names isCurrent, Option.some.injEq] at isName
    exact isName ▸ isReached
  have retypes := consistent.isContained_retype closed found own
  exact retypes.trans
    ((retypes.isReachClosed closed own).isContained_refreshDependents isReached)

end IsConsistent

/-- The names that are connected to a row with the given names before an edit
and after it: these names, and the name of every other row that mentions, in its
text or in its body, a connected name. -/
inductive IsConnected (sheet : Worksheet) (index : Nat) (before after : Text) :
    Text → Prop
  | before : sheet.IsConnected index before after before
  | after : sheet.IsConnected index before after after
  | mentions {other : Nat} {row : Row} {name : Text} (notEdited : other ≠ index)
      (found : sheet.rows[other]? = some row)
      (mentioned : mentions row.text name = true ∨
        mentions row.body name = true)
      (connected : sheet.IsConnected index before after name) :
      sheet.IsConnected index before after row.name

theorem isReachClosed_isConnected {row : Row}
    (found : sheet.rows[index]? = some row) (after : Text) :
    IsReachClosed (sheet.IsConnected index row.name after) index sheet where
  own name isName := by
    rw [getElem?_names found, Option.some.injEq] at isName
    exact isName ▸ .before
  mentioned _ _ _ notEdited found mentioned connected :=
    .mentions notEdited found mentioned connected

/-- The text is kept as it was typed, whether it is read or not. -/
theorem IsConsistent.text_retype
    (consistent : IsConsistent start present (fun _ => False) sheet)
    {row current : Row} (found : sheet.rows[index]? = some row) {text : Text}
    (isCurrent :
      (sheet.retype index row.name text).rows[index]? = some current) :
    current.text = text := by
  have typed : IsConsistent start present (fun other => False ∨ other = index)
      (sheet.modifyRow index (Row.withText text)) :=
    consistent.modifyRow index (Row.withText text) fun row => rfl
  have foundTyped := getElem?_modifyRow_self found (Row.withText text)
  cases applies : (sheet.modifyRow index (Row.withText text)).applyText index
      row.name text with
  | error error =>
      obtain ⟨inRange, -⟩ := List.getElem?_eq_some_iff.mp found
      rw [retype_of_error applies, (isRetyped_failRow found text _).rows,
        List.getElem?_set_self inRange, Option.some.injEq] at isCurrent
      rw [← isCurrent]
      rfl
  | ok applied =>
      obtain ⟨reading, renamed, -, renames, rfl⟩ := exists_of_applyText applies
      obtain ⟨foundRenamed, -⟩ :=
        typed.step_applyName foundTyped renames (List.Subset.refl _)
      have foundPlaced := getElem?_modifyRow_self foundRenamed
        (Row.withBody reading.body reading.offset)
      obtain ⟨inRange, -⟩ := List.getElem?_eq_some_iff.mp foundPlaced
      rw [retype_of_ok applies, recompile_eq foundPlaced,
        List.getElem?_set_self inRange, Option.some.injEq] at isCurrent
      rw [← isCurrent]
      rfl

/-- The pass after an edit does not come back to the edited row. -/
theorem getElem?_refreshDependents_self (sheet : Worksheet) (index : Nat)
    (name : Text) :
    (sheet.refreshDependents name (some index)).rows[index]? =
      sheet.rows[index]? := by
  refine getElem?_recompileAll (fun member => ?_) sheet
  cases mem_dependents_iff.mp member with
  | direct notSkipped | through notSkipped => exact notSkipped rfl

/-- A row in error has no function, and its name is not defined. -/
theorem IsConsistent.undefined_of_error?
    (consistent : IsConsistent start present (fun _ => False) sheet)
    {row : Row} (found : sheet.rows[index]? = some row)
    {error : CalculationError} (isError : row.error? = some error) :
    row.formula? = none ∧ sheet.environment.contains row.name = false := by
  have isFailed : row.state = .failed error := by
    unfold Row.error? at isError
    split at isError
    next isState =>
        rw [isState]
        simpa using isError
    next => contradiction
  have agrees := (consistent.settled index row found id).agrees
  unfold Row.Agrees at agrees
  rw [isFailed] at agrees
  refine ⟨by rw [Row.formula?, isFailed], ?_⟩
  exact Environment.contains_eq_false_iff.mpr
    (Environment.definition?_eq_none_iff.mp agrees)

/-- An edit in place ends with the result and the worksheet of the edit.  The
row has the text that was typed.  The result is an error exactly if the row has
this error, and then the row has no function and its name is not defined.  The
other rows keep their places and their names, all rows stay enabled or disabled,
and a row that is not connected to the edited one by mentions stays as it is,
together with its definition. -/
theorem editInPlace_performAll (start : Environment)
    (operations : List Operation) {index : Nat} {row : Row}
    (found : ((ofEnvironment start).performAll operations).rows[index]? =
      some row) (text : Text) :
    let sheet := (ofEnvironment start).performAll operations
    ∃ result after current,
      sheet.edit? index text = some (result, after) ∧
      editInPlace index text sheet = Editing.ending result after ∧
      after.rows[index]? = some current ∧ current.text = text ∧
      (result = .ok () ↔ current.error? = none) ∧
      (∀ error, result = .error error ↔ current.error? = some error ∧
        current.formula? = none ∧
          after.environment.contains current.name = false) ∧
      after.rows.length = sheet.rows.length ∧
      after.rows.map Row.isEnabled = sheet.rows.map Row.isEnabled ∧
      (∀ other, other ≠ index → after.names[other]? = sheet.names[other]?) ∧
      ∀ (other : Nat) (otherRow : Row), sheet.rows[other]? = some otherRow →
        ¬ sheet.IsConnected index row.name current.name otherRow.name →
          after.rows[other]? = some otherRow ∧
            after.environment.definition? otherRow.name =
              sheet.environment.definition? otherRow.name := by
  intro sheet
  have consistent :=
    (isConsistent_ofEnvironment start).performAll operations
  obtain ⟨inRange, -⟩ := List.getElem?_eq_some_iff.mp found
  replace inRange : index < sheet.rows.length := inRange
  rw [← length_retype sheet index row.name text] at inRange
  obtain ⟨current, isCurrent⟩ :
      ∃ current, (sheet.retype index row.name text).rows[index]? =
        some current := ⟨_, List.getElem?_eq_getElem inRange⟩
  have edited := (consistent.retype found text).refreshDependents current.name
    (some index)
  have foundLast : ((sheet.retype index row.name text).refreshDependents
      current.name (some index)).rows[index]? = some current := by
    rw [getElem?_refreshDependents_self, isCurrent]
  have contained := consistent.isContained_edit
    (isReachClosed_isConnected found current.name) found isCurrent .after
  refine ⟨current.state.result, _, current, edit?_eq_some found isCurrent,
    editInPlace_eq_of_retype found isCurrent, foundLast,
    consistent.text_retype found isCurrent, Row.result_state_eq_ok_iff,
    fun error => ?_, ?_, contained.enabled, contained.names,
    fun other otherRow foundOther notConnected => ?_⟩
  · rw [Row.result_state_eq_error_iff]
    exact ⟨fun isError => ⟨isError, edited.undefined_of_error? foundLast isError⟩,
      And.left⟩
  · have sameLength := congrArg List.length contained.enabled
    rwa [List.length_map, List.length_map] at sameLength
  · exact ⟨contained.rows other otherRow foundOther notConnected,
      Environment.definition?_congr (contained.definitions otherRow
        (List.mem_of_getElem? foundOther) notConnected)⟩

/-- An edit that renames its row and then fails.  The row that mentions it is
rewritten, and the row that is not connected to it stays as it is. -/
theorem editInPlace_performAll_wave :
    let sheet := (ofEnvironment (.empty {})).performAll
      [.pushRow, .edit 0 "f = sin x".toList, .pushRow,
        .edit 1 "2 f(x)".toList, .pushRow, .edit 2 "x".toList]
    ∃ error after current other,
      editInPlace 0 "wave = sin".toList sheet = .error error after ∧
        after.rows[0]? = some current ∧ current.text = "wave = sin".toList ∧
        current.error? = some error ∧
        after.environment.contains current.name = false ∧
        after.rows.map Row.text =
          ["wave = sin".toList, "2 wave(x)".toList, "x".toList] ∧
        sheet.rows[2]? = some other ∧ after.rows[2]? = some other ∧
        after.environment.definition? other.name =
          sheet.environment.definition? other.name := by
  intro sheet
  have found : ∃ row, sheet.rows[0]? = some row ∧ row.name = "f".toList := by
    decide +kernel
  have foundOther :
      ∃ other, sheet.rows[2]? = some other ∧ other.name = "y3".toList := by
    decide +kernel
  have outcome : ∃ edited, sheet.edit? 0 "wave = sin".toList = some edited ∧
      edited.1 ≠ .ok () ∧
        edited.2.names = ["wave".toList, "y2".toList, "y3".toList] ∧
        edited.2.rows.map Row.text =
          ["wave = sin".toList, "2 wave(x)".toList, "x".toList] := by
    decide +kernel
  have closed : ∀ entry ∈ sheet.rows.zipIdx, entry.2 ≠ 0 →
      ∀ name ∈ ["f".toList, "wave".toList, "y2".toList],
        mentions entry.1.text name = true ∨ mentions entry.1.body name = true →
          entry.1.name ∈ ["f".toList, "wave".toList, "y2".toList] := by
    decide +kernel
  have bound (name : Text)
      (connected : sheet.IsConnected 0 "f".toList "wave".toList name) :
      name ∈ ["f".toList, "wave".toList, "y2".toList] := by
    induction connected with
    | before => simp
    | after => simp
    | @mentions other row name notEdited found mentioned _ ih =>
        exact closed (row, other)
          (List.mem_zipIdx_iff_getElem?.mpr found) notEdited name ih mentioned
  obtain ⟨row, isFirst, isName⟩ := found
  obtain ⟨other, isOther, otherName⟩ := foundOther
  obtain ⟨result, after, current, edits, inPlace, isCurrent, isText, -, isError,
    -, -, -, unchanged⟩ :=
    editInPlace_performAll _ _ isFirst "wave = sin".toList
  obtain ⟨_, isEdited, fails, newNames, texts⟩ := outcome
  obtain rfl := Option.some.inj (edits.symm.trans isEdited)
  cases result with
  | ok value => exact absurd rfl fails
  | error error =>
      obtain ⟨currentError, -, undefined⟩ := (isError error).mp rfl
      have currentName : current.name = "wave".toList := by
        have first := getElem?_names isCurrent
        rw [newNames] at first
        exact (Option.some.inj first).symm
      have notConnected :
          ¬ sheet.IsConnected 0 row.name current.name other.name := by
        rw [isName, currentName, otherName]
        intro connected
        exact absurd (bound _ connected) (by decide)
      obtain ⟨sameRow, sameDefinition⟩ := unchanged 2 other isOther notConnected
      exact ⟨error, after, current, other, inPlace, isCurrent, isText,
        currentError, undefined, texts, isOther, sameRow, sameDefinition⟩

end Worksheet
end GraphingCalculator
