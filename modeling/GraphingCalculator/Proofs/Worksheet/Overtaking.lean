import GraphingCalculator.Proofs.Worksheet.Tracking

/-!
# Rows that are not overtaken are fresh

Every operation keeps the rows fresh that it does not overtake.  A row notices a
change of the definitions only through the names that it reads, and then it is
overtaken; and a renaming leaves a row fresh unless the row is left behind.
-/

namespace GraphingCalculator

namespace Tracked

open Worksheet

/-- A tracked worksheet is consistent, and its rows are fresh unless they are
blank, overtaken or pending. -/
structure IsSound (start : Environment) (present : Text → Text)
    (pending : Nat → Prop) (tracked : Tracked) : Prop where
  consistent : IsConsistent start present pending tracked.sheet
  visible : ∀ name, tracked.sheet.environment.userDefinition? name ≠ none →
    Environment.builtinDefinition? name = none
  fresh : ∀ index row, tracked.sheet.rows[index]? = some row →
    ¬ pending index → (Text.trim row.body).isEmpty = false →
      ¬ tracked.overtaken row.name → row.IsFresh tracked.sheet.environment

variable {start : Environment} {present : Text → Text}
variable {pending later : Nat → Prop} {tracked : Tracked}

namespace IsSound

theorem mono (sound : tracked.IsSound start present pending)
    (stillPending : ∀ index, pending index → later index) :
    tracked.IsSound start present later where
  consistent := sound.consistent.mono stillPending
  visible := sound.visible
  fresh index row found notLater :=
    sound.fresh index row found fun isPending =>
      notLater (stillPending index isPending)

theorem definable (sound : tracked.IsSound start present pending)
    {index : Nat} {row : Row} (found : tracked.sheet.rows[index]? = some row) :
    IsDefinable row.name :=
  sound.consistent.definable _ (IsConsistent.name_mem found)

/-- A row that is not overtaken stays fresh when other definitions change. -/
theorem isFresh_advance (sound : tracked.IsSound start present pending)
    {index : Nat} {row : Row} (found : tracked.sheet.rows[index]? = some row)
    (notPending : ¬ pending index)
    (notBlank : (Text.trim row.body).isEmpty = false) {after : Worksheet}
    (sameLimits : after.environment.limits = tracked.sheet.environment.limits)
    (sameDefinition : after.environment.userDefinition? row.name =
      tracked.sheet.environment.userDefinition? row.name)
    (notOvertaken : ¬ (tracked.advance after).overtaken row.name) :
    row.IsFresh after.environment := by
  have fresh := sound.fresh index row found notPending notBlank
    fun wasOvertaken => notOvertaken (.inl wasOvertaken)
  refine fresh.congr (sound.definable found) sameLimits.symm sameDefinition
    fun target _ reads => ?_
  by_contra changes
  exact notOvertaken (.inr ⟨row, List.mem_of_getElem? found, rfl, target, reads,
    Ne.symm changes⟩)

/-- A row changes its state and its definition, and the rows that are not
overtaken by it stay fresh. -/
theorem isFresh_setState (sound : tracked.IsSound start present pending)
    {index : Nat} {row : Row} (found : tracked.sheet.rows[index]? = some row)
    {state : Row.State} {environment : Environment}
    (sameLimits : environment.limits = tracked.sheet.environment.limits)
    (others : ∀ name, name ≠ row.name →
      environment.userDefinition? name =
        tracked.sheet.environment.userDefinition? name)
    (freshRow : (Text.trim row.body).isEmpty = false →
      { row with state }.IsFresh environment)
    {other : Nat} {otherRow : Row}
    (foundOther : (tracked.sheet.rows.set index
      { row with state })[other]? = some otherRow)
    (notPending : ¬ (pending other ∧ other ≠ index))
    (notBlank : (Text.trim otherRow.body).isEmpty = false)
    (notOvertaken : otherRow.name ≠ row.name →
      ¬ (tracked.advance ⟨environment, tracked.sheet.rows.set index
        { row with state }⟩).overtaken otherRow.name) :
    otherRow.IsFresh environment := by
  by_cases same : index = other
  · subst same
    obtain ⟨inRange, -⟩ := List.getElem?_eq_some_iff.mp found
    rw [List.getElem?_set_self inRange, Option.some.injEq] at foundOther
    subst foundOther
    exact freshRow notBlank
  · rw [List.getElem?_set_ne same] at foundOther
    have differs := sound.consistent.name_ne foundOther found (Ne.symm same)
    exact sound.isFresh_advance foundOther
      (fun isPending => notPending ⟨isPending, Ne.symm same⟩) notBlank
      sameLimits (others _ differs) (notOvertaken differs)

theorem recompile (sound : tracked.IsSound start present pending)
    (index : Nat) :
    (tracked.recompile index).IsSound start present
      (fun other => pending other ∧ other ≠ index) := by
  have consistent := sound.consistent.recompile index
  cases found : tracked.sheet.rows[index]? with
  | none =>
      have unchanged : tracked.sheet.recompile index = tracked.sheet := by
        rw [Worksheet.recompile, found]
      refine ⟨consistent, ?_, fun other row foundRow notPending notBlank
        notOvertaken => ?_⟩
      · simpa only [Tracked.recompile, advance, unchanged] using sound.visible
      · simp only [Tracked.recompile, advance, unchanged, found]
          at foundRow notOvertaken ⊢
        refine sound.fresh other row foundRow (fun isPending => ?_) notBlank
          fun wasOvertaken => notOvertaken ⟨.inl wasOvertaken, by simp⟩
        refine notPending ⟨isPending, ?_⟩
        rintro rfl
        rw [found] at foundRow
        contradiction
  | some row =>
      have compiled := recompile_eq found
      have others (name : Text) (differs : name ≠ row.name) :
          (row.compile tracked.sheet.environment).2.userDefinition? name =
            tracked.sheet.environment.userDefinition? name :=
        Row.userDefinition?_compile_of_ne differs
      refine ⟨consistent, fun name isDefined => ?_, fun other otherRow
        foundOther notPending notBlank notOvertaken => ?_⟩
      · simp only [Tracked.recompile, advance, compiled] at isDefined
        by_cases same : name = row.name
        · rw [same]
          exact (sound.definable found).not_builtin
        · exact sound.visible name (others name same ▸ isDefined)
      · simp only [Tracked.recompile, advance, compiled, found]
          at foundOther notOvertaken ⊢
        refine sound.isFresh_setState found (Row.limits_compile _ row) others
          (fun _ => Row.isFresh_compile (sound.definable found)) foundOther
          notPending notBlank fun differs isOvertaken => ?_
        refine notOvertaken ⟨isOvertaken, ?_⟩
        rw [Option.map_some, ne_eq, Option.some.injEq]
        exact Ne.symm differs

theorem recompileAll (sound : tracked.IsSound start present pending)
    (indices : List Nat) :
    (indices.foldl Tracked.recompile tracked).IsSound start present
      (fun other => pending other ∧ other ∉ indices) :=
  foldl_settles (IsSound start present) mono
    (fun index _ sound => sound.recompile index) sound

theorem refreshDependents (sound : tracked.IsSound start present pending)
    (name : Text) (skipped : Option Nat) :
    (tracked.refreshDependents name skipped).IsSound start present pending :=
  (sound.recompileAll _).mono fun _ isPending => isPending.1

/-- A row without a body fails, and its definition is taken away. -/
theorem failRow (sound : tracked.IsSound start present pending)
    {index : Nat} {row : Row} (found : tracked.sheet.rows[index]? = some row)
    (isBlank : (Text.trim row.body).isEmpty = true) (error : CalculationError) :
    (tracked.advance (tracked.sheet.failRow index error)).IsSound start present
      (fun other => pending other ∧ other ≠ index) := by
  have consistent := sound.consistent.failRow index error
  have failed : tracked.sheet.failRow index error =
      ⟨(tracked.sheet.environment.remove row.name).2,
        tracked.sheet.rows.set index { row with state := .failed error }⟩ := by
    rw [Worksheet.failRow, found]
  rw [failed] at consistent ⊢
  refine ⟨consistent, fun name isDefined => ?_, fun other otherRow
    foundOther notPending notBlank notOvertaken => ?_⟩
  · refine sound.visible name fun undefined => isDefined ?_
    rw [advance, Environment.userDefinition?_remove, undefined, ite_self]
  · refine sound.isFresh_setState found (Environment.limits_remove _ _)
      (fun name differs => Environment.userDefinition?_remove_of_ne differs _)
      (fun isFilled => ?_) foundOther notPending notBlank fun _ => notOvertaken
    rw [isBlank] at isFilled
    contradiction

/-- A row can be typed into while it waits for its compilation. -/
theorem modifyRow (sound : tracked.IsSound start present pending)
    (index : Nat) (change : Row → Row)
    (keepsName : ∀ row, (change row).name = row.name) :
    (tracked.modifyRow index change).IsSound start present
      (fun other => pending other ∨ other = index) := by
  refine ⟨sound.consistent.modifyRow index change keepsName, sound.visible,
    fun other row found notPending => ?_⟩
  push Not at notPending
  rw [Tracked.modifyRow, getElem?_modifyRow] at found
  simp only [Ne.symm notPending.2, if_false, Option.map_id'] at found
  exact sound.fresh other row found notPending.1

/-- A row is taken out with its definition. -/
theorem removeFirst
    (sound : tracked.IsSound start present (fun _ => False))
    {index : Nat} {row : Row} (found : tracked.sheet.rows[index]? = some row) :
    (tracked.advance ⟨(tracked.sheet.environment.remove row.name).2,
      tracked.sheet.rows.eraseIdx index⟩).IsSound start present
        (fun _ => False) := by
  refine ⟨sound.consistent.removeFirst found, fun name isDefined => ?_,
    fun other otherRow foundOther _ notBlank notOvertaken => ?_⟩
  · refine sound.visible name fun undefined => isDefined ?_
    rw [advance, Environment.userDefinition?_remove, undefined, ite_self]
  · obtain ⟨place, differs, foundPlace⟩ := List.mem_eraseIdx_iff_getElem?.mp
      (List.mem_of_getElem? foundOther)
    exact sound.isFresh_advance foundPlace id notBlank
      (Environment.limits_remove _ _)
      (Environment.userDefinition?_remove_of_ne
        (sound.consistent.name_ne foundPlace found differs) _) notOvertaken

theorem insertRow
    (sound : tracked.IsSound start present (fun _ => False)) (index : Nat) :
    (tracked.advance (tracked.sheet.insertRow index).2).IsSound start present
      (fun _ => False) := by
  refine ⟨sound.consistent.insertRow index, sound.visible,
    fun other row found _ notBlank notOvertaken => ?_⟩
  have member := List.mem_of_getElem? found
  have inRange : min index tracked.sheet.rows.length ≤
      tracked.sheet.rows.length := Nat.min_le_right _ _
  simp only [advance, Worksheet.insertRow] at member
  rw [(List.perm_insertIdx _ _ inRange).mem_iff, List.mem_cons] at member
  rcases member with rfl | isRow
  · simp [Row.empty, Text.trim, Text.trimEnd, Text.trimStart] at notBlank
  · obtain ⟨place, foundPlace⟩ := List.getElem?_of_mem isRow
    exact sound.fresh place row foundPlace id notBlank
      fun wasOvertaken => notOvertaken (.inl wasOvertaken)

theorem setEnabled
    (sound : tracked.IsSound start present (fun _ => False)) (index : Nat)
    (isEnabled : Bool) :
    (tracked.advance (tracked.sheet.perform
      (.setEnabled index isEnabled))).IsSound start present
        (fun _ => False) := by
  unfold Worksheet.perform
  dsimp only
  cases changes : tracked.sheet.setEnabled? index isEnabled with
  | none =>
      exact ⟨sound.consistent, sound.visible,
        fun other row found notPending notBlank notOvertaken =>
          sound.fresh other row found notPending notBlank
            fun wasOvertaken => notOvertaken (.inl wasOvertaken)⟩
  | some changed =>
      have consistent := sound.consistent.setEnabled changes
      rw [setEnabled?, Option.map_eq_some_iff] at changes
      obtain ⟨row, found, rfl⟩ := changes
      refine ⟨consistent, sound.visible,
        fun other otherRow foundOther _ notBlank notOvertaken => ?_⟩
      simp only [advance, Option.getD_some] at foundOther ⊢
      rw [getElem?_modifyRow, Option.map_eq_some_iff] at foundOther
      obtain ⟨before, foundBefore, rfl⟩ := foundOther
      -- Neither the body nor the name nor the state of a row changes.
      have fresh := sound.fresh other before foundBefore id
        (by split at notBlank <;> exact notBlank)
        (fun wasOvertaken => notOvertaken
          (.inl (by split <;> exact wasOvertaken)))
      split
      next => exact ⟨fresh.state, fresh.definition⟩
      next => exact fresh

section Rename

variable {old new : Text} {environment : Environment}

/-- A row that is neither rewritten nor left behind ignores the renaming. -/
theorem ignores_of_not_isLeftBehind {row : Row} {environment : Environment}
    (notMentioned : mentions row.body old = false)
    (notLeft : ¬ row.IsLeftBehind environment old new) :
    row.Ignores environment old new where
  notMentioned := notMentioned
  notReadsNew reads := notLeft (.inl reads)
  notReads isError reads := notLeft (.inr ⟨isError, .inl reads⟩)

/-- The rows that a renaming does not rewrite are fresh after it, unless they
are left behind. -/
theorem relabel (sound : tracked.IsSound start present pending)
    (differs : old ≠ new) (available : tracked.sheet.checkName new = .ok ())
    (renamesDefinition :
      tracked.sheet.renameDefinition old new = .ok environment)
    {skipped : Option Nat}
    (skips : ∀ index, skipped = some index → pending index) :
    let relabeled : Worksheet :=
      ⟨environment, tracked.sheet.rows.map (Row.relabel old new)⟩
    Tracked.IsSound start
      (fun given => Expression.renameName old new (present given))
      (fun index => pending index ∨ relabeled.MentionsAt old index)
      { sheet := relabeled.rewrite old new skipped
        overtaken := fun name => ∃ row ∈ tracked.sheet.rows,
          Expression.renameName old new row.name = name ∧
            (tracked.overtaken row.name ∨
              row.IsLeftBehind tracked.sheet.environment old new) } := by
  intro relabeled
  obtain ⟨⟨change, isChange, follows⟩, nothingElse⟩ :=
    renameDefinition_spec differs available renamesDefinition
  obtain ⟨canDefine, notRow⟩ := checkName_eq_ok_iff.mp available
  have definableNew := (Environment.checkAvailable_eq_ok_iff.mp canDefine).1
  have consistent : IsConsistent start
      (fun given => Expression.renameName old new (present given))
      (fun index => pending index ∨ relabeled.MentionsAt old index)
      (relabeled.rewrite old new skipped) :=
    (sound.consistent.relabel differs available renamesDefinition).rewrite
  refine ⟨consistent, fun name isDefined => ?_,
    fun index row found notPending notBlank notOvertaken => ?_⟩
  · obtain ⟨earlier, -, rfl, wasDefined⟩ := nothingElse name isDefined
    unfold Expression.renameName
    split
    · exact definableNew.not_builtin
    · exact sound.visible earlier wasDefined
  · push Not at notPending
    obtain ⟨waits, notMentions⟩ := notPending
    have notSkipped : skipped ≠ some index := fun same =>
      waits (skips index same)
    rw [Worksheet.rewrite, List.getElem?_mapIdx, List.getElem?_map] at found
    obtain ⟨moved, foundMoved, rfl⟩ := Option.map_eq_some_iff.mp found
    obtain ⟨before, foundBefore, rfl⟩ := Option.map_eq_some_iff.mp foundMoved
    simp only [notSkipped, if_false] at found notBlank notOvertaken ⊢
    have notMentioned : mentions before.body old = false := by
      rw [← Bool.not_eq_true]
      exact fun mentioned => notMentions
        ⟨before.relabel old new, by simp [relabeled, foundBefore], mentioned⟩
    have sameBody : ((before.relabel old new).renameIdentifiers old new).body =
        before.body := by
      rw [Row.body_renameIdentifiers]
      exact renameIdentifier_of_not_mentions notMentioned
    have isName : ((before.relabel old new).renameIdentifiers old new).name =
        Expression.renameName old new before.name :=
      Row.name_renameIdentifiers ..
    have notNew : before.name ≠ new := by
      rintro rfl
      exact notRow (IsConsistent.name_mem foundBefore)
    have keeps (changes : tracked.overtaken before.name ∨
        before.IsLeftBehind tracked.sheet.environment old new) : False :=
      notOvertaken ⟨before, List.mem_of_getElem? foundBefore, isName.symm,
        changes⟩
    have fresh := sound.fresh index before foundBefore waits
      (sameBody ▸ notBlank) fun wasOvertaken => keeps (.inl wasOvertaken)
    refine fresh.of_renames
      (ignores_of_not_isLeftBehind notMentioned fun left => keeps (.inr left))
      (renames_of_renameDefinition (sound.visible old) differs available
        renamesDefinition)
      (sound.definable foundBefore) ?_ notNew isName sameBody
      (Row.state_renameIdentifiers ..) (fun isError => ?_)
      (isChange.imp And.left id) ?_
    · have foundAfter : (relabeled.rewrite old new skipped).rows[index]? =
          some ((before.relabel old new).renameIdentifiers old new) := by
        rw [Worksheet.rewrite, List.getElem?_mapIdx, List.getElem?_map,
          foundBefore]
        simp [notSkipped]
      exact consistent.definable _ (IsConsistent.name_mem foundAfter)
    · have notInText : mentions (before.relabel old new).text old = false := by
        rw [← Bool.not_eq_true]
        exact fun mentioned => keeps (.inr (.inr ⟨isError, .inr mentioned⟩))
      exact Row.offset_renameIdentifiers notInText new
    · rw [isName]
      exact follows before.name notNew

theorem renameWith (sound : tracked.IsSound start present pending)
    (differs : old ≠ new) (available : tracked.sheet.checkName new = .ok ())
    (renamesDefinition :
      tracked.sheet.renameDefinition old new = .ok environment)
    {skipped : Option Nat}
    (skips : ∀ index, skipped = some index → pending index) :
    (tracked.renameWith environment old new skipped).IsSound start
      (fun given => Expression.renameName old new (present given)) pending :=
  ((sound.relabel differs available renamesDefinition skips).recompileAll
    _).mono fun _ => pending_of_not_rewritten differs skips

end Rename

theorem congr_present {second : Text → Text}
    (sound : tracked.IsSound start present pending)
    (same : ∀ given, start.userDefinition? given ≠ none →
      present given = second given) :
    tracked.IsSound start second pending :=
  { sound with consistent := sound.consistent.congr_present same }

theorem rename (sound : tracked.IsSound start present (fun _ => False))
    (old new : Text) :
    (tracked.rename old new).IsSound start
      (fun given => tracked.sheet.nameAfter (.rename old new) (present given))
      (fun _ => False) := by
  rw [Tracked.rename]
  by_cases differs : old = new
  · rw [if_pos differs]
    refine sound.congr_present fun given _ => ?_
    rw [nameAfter]
    split
    · rw [differs, Expression.renameName_same]
    · rfl
  rw [if_neg differs]
  cases renames : tracked.sheet.rename old new with
  | error error => simpa only [nameAfter, renames] using sound
  | ok renamed =>
      obtain ⟨available, environment, renamesDefinition, rfl⟩ :=
        sound.consistent.rename_eq_ok differs renames
      rw [renamesDefinition]
      simpa only [nameAfter, renames] using
        sound.renameWith differs available renamesDefinition
          (fun index impossible => by cases impossible)

/-- A row that is renamed keeps the definitions from the start in place. -/
theorem of_renamed_row {old new : Text} {before : Tracked}
    (sound : before.IsSound start present pending)
    (isRow : old ∈ before.sheet.names)
    (after : tracked.IsSound start
      (fun given => Expression.renameName old new (present given)) later) :
    tracked.IsSound start present later :=
  { after with
    consistent := sound.consistent.of_renamed_row isRow after.consistent }

theorem applyText {index : Nat} {row : Row}
    (sound : tracked.IsSound start present (fun other => other = index))
    (found : tracked.sheet.rows[index]? = some row) {text : Text}
    {applied : Tracked}
    (applies : tracked.applyText index row.name text = .ok applied) :
    applied.IsSound start present (fun _ => False) := by
  obtain ⟨reading, -, applies⟩ := bind_eq_ok_iff.mp applies
  obtain ⟨renamed, renames, applies⟩ := bind_eq_ok_iff.mp applies
  cases applies
  have soundRenamed :
      renamed.IsSound start present (fun other => other = index) := by
    unfold applyName at renames
    split at renames
    next =>
        cases renames
        exact sound
    next new _ =>
        split at renames
        next =>
            cases renames
            exact sound
        next differs =>
            obtain ⟨available, renames⟩ := check_bind_eq_ok_iff.mp renames
            obtain ⟨environment, renamesDefinition, renames⟩ :=
              bind_eq_ok_iff.mp renames
            cases renames
            exact sound.of_renamed_row (IsConsistent.name_mem found)
              (sound.renameWith (Ne.symm differs) available renamesDefinition
                (by simp))
  have placed := soundRenamed.modifyRow index
    (Row.withBody reading.body reading.offset) fun row => rfl
  refine (placed.recompile index).mono ?_
  rintro other ⟨isIndex | isIndex, notIndex⟩
  · exact notIndex isIndex
  · exact notIndex isIndex

theorem retype (sound : tracked.IsSound start present (fun _ => False))
    {index : Nat} {row : Row} (found : tracked.sheet.rows[index]? = some row)
    (text : Text) :
    (tracked.retype index row.name text).IsSound start present
      (fun _ => False) := by
  have typed : (tracked.modifyRow index (Row.withText text)).IsSound start
      present (fun other => other = index) :=
    (sound.modifyRow index (Row.withText text) fun row => rfl).mono
      fun other isPending => isPending.resolve_left id
  have foundTyped : (tracked.modifyRow index
      (Row.withText text)).sheet.rows[index]? = some (row.withText text) := by
    rw [Tracked.modifyRow, getElem?_modifyRow, found]
    simp
  unfold Tracked.retype
  dsimp only
  split
  next applied applies => exact typed.applyText foundTyped applies
  next error _ =>
      exact (typed.failRow foundTyped rfl _).mono fun other isPending =>
        isPending.2 isPending.1

theorem edit (sound : tracked.IsSound start present (fun _ => False))
    (index : Nat) (text : Text) :
    (tracked.edit index text).IsSound start present (fun _ => False) := by
  rw [Tracked.edit]
  cases found : tracked.sheet.rows[index]? with
  | none => exact sound
  | some row =>
      have retyped := sound.retype found text
      dsimp only
      cases (tracked.retype index row.name text).sheet.rows[index]? with
      | none => exact retyped
      | some current => exact retyped.refreshDependents _ _

theorem moveDown (sound : tracked.IsSound start present (fun _ => False))
    (index : Nat) :
    (tracked.moveDown index).IsSound start present (fun _ => False) := by
  unfold Tracked.moveDown
  dsimp only
  split
  next isDefault =>
      obtain ⟨row, found, isName⟩ := Option.map_eq_some_iff.mp isDefault
      have moved := sound.rename (Row.defaultName (index + 2))
        (Row.defaultName (index + 1))
      cases renames : tracked.sheet.rename (Row.defaultName (index + 2))
          (Row.defaultName (index + 1)) with
      | error error => simpa only [nameAfter, renames] using moved
      | ok renamed =>
          simp only [nameAfter, renames] at moved
          exact sound.of_renamed_row
            (isName ▸ IsConsistent.name_mem found) moved
  next => exact sound

theorem removeRow (sound : tracked.IsSound start present (fun _ => False))
    (index : Nat) :
    (tracked.removeRow index).IsSound start present (fun _ => False) := by
  rw [Tracked.removeRow]
  cases found : tracked.sheet.rows[index]? with
  | none => exact sound
  | some removed =>
      have moved (places : List Nat) {first : Tracked}
          (soundFirst : first.IsSound start present (fun _ => False)) :
          (places.foldl Tracked.moveDown first).IsSound start present
            (fun _ => False) := by
        induction places generalizing first with
        | nil => exact soundFirst
        | cons place rest ih => exact ih (soundFirst.moveDown place)
      exact (moved _ (sound.removeFirst found)).refreshDependents _ _

/-- Every operation keeps the rows fresh that it does not overtake. -/
theorem perform (sound : tracked.IsSound start present (fun _ => False))
    (operation : Operation) :
    (tracked.perform operation).IsSound start
      (fun given => tracked.sheet.nameAfter operation (present given))
      (fun _ => False) := by
  cases operation with
  | pushRow => exact sound.insertRow _
  | insertRow index => exact sound.insertRow index
  | edit index text => exact sound.edit index text
  | rename old new => exact sound.rename old new
  | removeRow index => exact sound.removeRow index
  | setEnabled index isEnabled => exact sound.setEnabled index isEnabled

theorem performAll (sound : tracked.IsSound start present (fun _ => False))
    (operations : List Operation) :
    (tracked.performAll operations).IsSound start
        (fun given => tracked.sheet.nameAfterAll operations (present given))
        (fun _ => False) ∧
      (tracked.performAll operations).sheet =
        tracked.sheet.performAll operations := by
  induction operations generalizing present tracked with
  | nil => exact ⟨sound, rfl⟩
  | cons operation rest ih =>
      have performed := sound.perform operation
      have sameSheet := sheet_perform sound.consistent operation
      obtain ⟨soundRest, sameRest⟩ := ih performed
      rw [sameSheet] at soundRest sameRest
      exact ⟨soundRest, sameRest⟩

end IsSound

end Tracked
end GraphingCalculator
