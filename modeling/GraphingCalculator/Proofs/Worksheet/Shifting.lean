import GraphingCalculator.Proofs.Worksheet.Retention

/-!
# Rows that move down

When a row was removed, the rows after it that carry default names move down one
after the other.  Rows retain their values through all of these renamings, and
through the pass that follows them, if they and the rows that they mention
mention no name that is free and that a row moves to, and if those of them that
depend on a row which moves are steady.
-/

namespace GraphingCalculator

/-- A default name can take the place of any name. -/
theorem isReplaceable_defaultName (old : Text) (number : Nat) (source : Text) :
    IsReplaceable old (Row.defaultName number) source :=
  isReplaceable_of_head rfl (by decide) old source

namespace Worksheet

variable {start : Environment} {present : Text → Text}
variable {kept moving affected : Nat → Prop} {freed old new : Text}
variable {origin sheet renamed : Worksheet} {place : Nat}

/-- The row at the first index mentions the row at the second index. -/
def RefersAt (sheet : Worksheet) (index other : Nat) : Prop :=
  ∃ name, sheet.names[other]? = some name ∧ sheet.MentionsAt name index

theorem RefersAt.of_outline {first second : Worksheet}
    (same : first.rows.map Row.outline = second.rows.map Row.outline)
    {index other : Nat} (refers : first.RefersAt index other) :
    second.RefersAt index other := by
  obtain ⟨name, isName, mentioned⟩ := refers
  exact ⟨name, names_of_outline same ▸ isName, mentioned.of_outline same⟩

namespace IsConsistent

variable (consistent : IsConsistent start present (fun _ => False) sheet)
variable (differs : old ≠ new) (renames : sheet.rename old new = .ok renamed)
variable (replaceable : ∀ source, IsReplaceable old new source)
include consistent differs renames

theorem not_mem_names_of_rename : new ∉ sheet.names :=
  (checkName_eq_ok_iff.mp (consistent.rename_eq_ok differs renames).1).2

theorem undefined_of_rename : sheet.environment.userDefinition? new = none :=
  (Environment.checkAvailable_eq_ok_iff.mp (checkName_eq_ok_iff.mp
    (consistent.rename_eq_ok differs renames).1).1).2

/-- A name that a row carries after a renaming is the new one, or the row
carried it before. -/
theorem getElem?_names_rename {index : Nat} {name : Text}
    (notNew : name ≠ new) :
    renamed.names[index]? = some name ↔
      sheet.names[index]? = some name ∧ name ≠ old := by
  rw [consistent.names_rename differs renames, List.getElem?_map,
    Option.map_eq_some_iff]
  constructor
  · rintro ⟨earlier, isEarlier, isName⟩
    by_cases isOld : earlier = old
    · rw [isOld, Expression.renameName_self] at isName
      exact absurd isName.symm notNew
    · rw [Expression.renameName_of_ne isOld] at isName
      exact ⟨isName ▸ isEarlier, isName ▸ isOld⟩
  · rintro ⟨isName, notOld⟩
    exact ⟨name, isName, Expression.renameName_of_ne notOld⟩

theorem mem_names_rename_iff {name : Text} (notNew : name ≠ new) :
    name ∈ renamed.names ↔ name ∈ sheet.names ∧ name ≠ old := by
  rw [List.mem_iff_getElem?, List.mem_iff_getElem?, ← exists_and_right]
  apply exists_congr
  intro index
  exact consistent.getElem?_names_rename differs renames notNew

include replaceable

/-- The same for the names that a row mentions. -/
theorem mentionsAt_rename_iff_of_ne {index : Nat} {name : Text}
    (notNew : name ≠ new) :
    renamed.MentionsAt name index ↔
      sheet.MentionsAt name index ∧ name ≠ old := by
  rw [consistent.mentionsAt_rename_iff differs renames replaceable]
  constructor
  · rintro ⟨earlier, mentioned, isName⟩
    by_cases isOld : earlier = old
    · rw [isOld, Expression.renameName_self] at isName
      exact absurd isName.symm notNew
    · rw [Expression.renameName_of_ne isOld] at isName
      exact ⟨isName ▸ mentioned, isName ▸ isOld⟩
  · rintro ⟨mentioned, notOld⟩
    exact ⟨name, mentioned, Expression.renameName_of_ne notOld⟩

/-- References follow the rows through a renaming. -/
theorem refersAt_rename {index other : Nat}
    (refers : sheet.RefersAt index other) :
    renamed.RefersAt index other := by
  obtain ⟨name, isName, mentioned⟩ := refers
  refine ⟨Expression.renameName old new name, ?_, ?_⟩
  · rw [consistent.names_rename differs renames, List.getElem?_map, isName,
      Option.map_some]
  · exact (consistent.mentionsAt_rename_iff differs renames replaceable).mpr
      ⟨name, mentioned, rfl⟩

/-- A row refers to no other rows after a renaming, if it did not mention the
new name before. -/
theorem refersAt_rename_iff {index other : Nat}
    (notMentioned : ¬ sheet.MentionsAt new index) :
    renamed.RefersAt index other ↔ sheet.RefersAt index other := by
  refine ⟨?_, consistent.refersAt_rename differs renames replaceable⟩
  rintro ⟨name, isName, mentioned⟩
  obtain ⟨earlier, wasMentioned, rfl⟩ :=
    (consistent.mentionsAt_rename_iff differs renames replaceable).mp mentioned
  rw [consistent.names_rename differs renames, List.getElem?_map,
    Option.map_eq_some_iff] at isName
  obtain ⟨carried, isCarried, same⟩ := isName
  have notNew : carried ≠ new := by
    rintro rfl
    exact consistent.not_mem_names_of_rename differs renames
      (List.mem_of_getElem? isCarried)
  have earlierNotNew : earlier ≠ new := by
    rintro rfl
    exact notMentioned wasMentioned
  obtain rfl := Expression.renameName_inj notNew earlierNotNew same
  exact ⟨carried, isCarried, wasMentioned⟩

end IsConsistent

/-- A row moves down, or nothing changes. -/
theorem moveDown_cases (sheet : Worksheet) (place : Nat) :
    sheet.moveDown place = sheet ∨
      sheet.names[place]? = some (Row.defaultName (place + 2)) ∧
        sheet.rename (Row.defaultName (place + 2))
          (Row.defaultName (place + 1)) = .ok (sheet.moveDown place) := by
  have isNames : sheet.names[place]? = sheet.rows[place]?.map Row.name :=
    List.getElem?_map
  rw [moveDown, isNames]
  split
  next isDefault =>
      split
      next renamed renames => exact .inr ⟨isDefault, renames⟩
      next => exact .inl rfl
  next => exact .inl rfl

theorem defaultName_ne {first second : Nat} (differs : first ≠ second) :
    Row.defaultName first ≠ Row.defaultName second :=
  fun same => differs (Row.defaultName_inj same)

/-- What holds before rows move down holds afterwards, if it is kept by each of
them in turn. -/
theorem moveDownAll_induct {property : Nat → Worksheet → Prop}
    (step : ∀ place sheet, property place sheet →
      property (place + 1) (sheet.moveDown place))
    (before : property place sheet) (count : Nat) :
    property (place + count)
      ((List.range' place count).foldl moveDown sheet) := by
  induction count generalizing place sheet with
  | zero => exact before
  | succ count ih =>
      rw [List.range'_succ, List.foldl_cons, ← Nat.succ_add_eq_add_succ]
      exact ih (step place sheet before)

/-- No definition from the start has a name. -/
def IsUnclaimed (start : Environment) (present : Text → Text) (name : Text) :
    Prop :=
  ∀ given, start.userDefinition? given ≠ none → present given ≠ name

namespace IsConsistent

variable (consistent : IsConsistent start present (fun _ => False) sheet)
include consistent

/-- A row that is still to move carried its name before another one moved. -/
theorem getElem?_names_of_moveDown {later : Nat} (after : place < later)
    (isDefault : (sheet.moveDown place).names[later]? =
      some (Row.defaultName (later + 2))) :
    sheet.names[later]? = some (Row.defaultName (later + 2)) := by
  rcases moveDown_cases sheet place with unchanged | ⟨-, renames⟩
  · rwa [unchanged] at isDefault
  · exact ((consistent.getElem?_names_rename (defaultName_ne (by omega)) renames
      (defaultName_ne (by omega))).mp isDefault).1

/-- A name that no row carries has no definition exactly if none from the start
has it. -/
theorem isUnclaimed_iff {name : Text} (notRow : name ∉ sheet.names) :
    IsUnclaimed start present name ↔
      sheet.environment.userDefinition? name = none := by
  constructor
  · intro unclaimed
    by_contra isDefined
    rcases consistent.accounted name isDefined with
      ⟨given, isGiven, isName⟩ | isRow
    · exact unclaimed given isGiven isName
    · exact notRow isRow
  · intro undefined given isGiven isName
    obtain ⟨definition, isDefinition⟩ := Option.ne_none_iff_exists'.mp isGiven
    obtain ⟨current, isCurrent, -⟩ :=
      consistent.kept given definition isDefinition
    rw [isName, undefined] at isCurrent
    contradiction

theorem isUnclaimed_of_mem_names {name : Text} (isRow : name ∈ sheet.names) :
    IsUnclaimed start present name :=
  fun given isGiven isName => consistent.apart given isGiven (isName ▸ isRow)

end IsConsistent

/-- A worksheet after some rows have moved down, with what the rows that are
kept need to retain their values.  The rows from a place on are still to move.
No row that is kept mentions a free name that one of them moves to, and the
freed name is mentioned only where another row carries it by now. -/
structure IsShifted (start : Environment) (present : Text → Text)
    (kept moving affected : Nat → Prop) (freed : Text) (origin : Worksheet)
    (place : Nat) (sheet : Worksheet) : Prop where
  consistent : IsConsistent start present (fun _ => False) sheet
  separated : sheet.IsSeparated kept
  refers : ∀ index other, kept index →
    (sheet.RefersAt index other ↔ origin.RefersAt index other)
  awaiting : ∀ later, place ≤ later →
    sheet.names[later]? = some (Row.defaultName (later + 2)) → moving later
  untaken : ∀ later, place ≤ later →
    sheet.names[later]? = some (Row.defaultName (later + 2)) →
      Row.defaultName (later + 1) ∉ sheet.names →
        IsUnclaimed start present (Row.defaultName (later + 1)) →
          ∀ index, kept index →
            ¬ sheet.MentionsAt (Row.defaultName (later + 1)) index
  reused : ∀ index, kept index → sheet.MentionsAt freed index →
    ∃ other, moving other ∧ sheet.names[other]? = some freed
  steady : ∀ index, kept index → affected index →
    sheet.IsSteadyAt kept index
  retains : origin.Retains kept sheet

namespace IsShifted

variable (affects : ∀ index other, kept index → origin.RefersAt index other →
  moving other ∨ affected other → affected index)
include affects

/-- The row at the place can be renamed without changing the rows that are
kept. -/
theorem canRename (isClosed : start.IsClosed)
    (shifted : IsShifted start present kept moving affected freed origin place
      sheet)
    (isDefault : sheet.names[place]? = some (Row.defaultName (place + 2)))
    (renames : sheet.rename (Row.defaultName (place + 2))
      (Row.defaultName (place + 1)) = .ok renamed) :
    CanRename kept (Row.defaultName (place + 2)) (Row.defaultName (place + 1))
      sheet := by
  have consistent := shifted.consistent
  have differs : Row.defaultName (place + 2) ≠ Row.defaultName (place + 1) :=
    defaultName_ne (by omega)
  have notRow := consistent.not_mem_names_of_rename differs renames
  have unclaimed := (consistent.isUnclaimed_iff notRow).mpr
    (consistent.undefined_of_rename differs renames)
  refine
    { keepsApart := consistent.keepsApart isClosed
      separated := shifted.separated
      isRow := List.mem_of_getElem? isDefault
      differs
      available := (consistent.rename_eq_ok differs renames).1
      unmentioned :=
        shifted.untaken place le_rfl isDefault notRow unclaimed
      steady := fun index isKept mentioned => ?_ }
  have refers := (shifted.refers index place isKept).mp
    ⟨_, isDefault, mentioned⟩
  have isMoving := shifted.awaiting place le_rfl isDefault
  exact shifted.steady index isKept
    (affects index place isKept refers (.inl isMoving))

/-- One row moves down. -/
theorem moveDown (isClosed : start.IsClosed)
    (shifted : IsShifted start present kept moving affected freed origin place
      sheet) :
    IsShifted start present kept moving affected freed origin (place + 1)
      (sheet.moveDown place) := by
  have consistent := shifted.consistent
  rcases moveDown_cases sheet place with unchanged | ⟨isDefault, renames⟩
  · rw [unchanged]
    exact
      { shifted with
        awaiting := fun later after =>
          shifted.awaiting later (Nat.le_of_succ_le after)
        untaken := fun later after =>
          shifted.untaken later (Nat.le_of_succ_le after) }
  · have canRename := shifted.canRename affects isClosed isDefault renames
    have differs := canRename.differs
    have replaceable := isReplaceable_defaultName (Row.defaultName (place + 2))
      (place + 1)
    refine
      { consistent := consistent.moveDown place
        separated :=
          (canRename.corresponds_rename consistent renames replaceable).2
        refers := fun index other isKept => ?_
        awaiting := fun later after isName =>
          shifted.awaiting later (Nat.le_of_succ_le after)
            (consistent.getElem?_names_of_moveDown after isName)
        untaken := fun later after isName notRow unclaimed index isKept
          mentioned => ?_
        reused := fun index isKept mentioned => ?_
        steady := fun index isKept isAffected =>
          canRename.isSteadyAt_rename consistent renames replaceable isKept
            (shifted.steady index isKept isAffected)
        retains := shifted.retains.trans
          (canRename.retains consistent renames replaceable) }
    · rw [consistent.refersAt_rename_iff differs renames replaceable
        (canRename.unmentioned index isKept)]
      exact shifted.refers index other isKept
    · -- The name was not mentioned before, and the renaming mentions only the
      -- name that the row moves to.
      obtain ⟨wasMentioned, notOld⟩ := (consistent.mentionsAt_rename_iff_of_ne
        differs renames replaceable (defaultName_ne (by omega))).mp mentioned
      refine shifted.untaken later (Nat.le_of_succ_le after)
        (consistent.getElem?_names_of_moveDown after isName) ?_ unclaimed index
        isKept wasMentioned
      intro isRow
      exact notRow ((consistent.mem_names_rename_iff differs renames
        (defaultName_ne (by omega))).mpr ⟨isRow, notOld⟩)
    · by_cases isNew : freed = Row.defaultName (place + 1)
      · refine ⟨place, shifted.awaiting place le_rfl isDefault, ?_⟩
        rw [consistent.names_rename differs renames, List.getElem?_map,
          isDefault, Option.map_some, Expression.renameName_self, isNew]
      · obtain ⟨wasMentioned, notOld⟩ := (consistent.mentionsAt_rename_iff_of_ne
          differs renames replaceable isNew).mp mentioned
        obtain ⟨other, isMovingOther, isOther⟩ :=
          shifted.reused index isKept wasMentioned
        exact ⟨other, isMovingOther, (consistent.getElem?_names_rename differs
          renames isNew).mpr ⟨isOther, notOld⟩⟩

/-- After the rows have moved, the rows that depended on the removed one are
compiled. -/
theorem refreshDependents (shifted : IsShifted start present kept moving
    affected freed origin place sheet) :
    origin.Retains kept (sheet.refreshDependents freed none) := by
  -- A row is found by the search because it mentions the freed name, or because
  -- it mentions a row that is found.
  have mentioned : ∀ index ∈ dependents (sheet.rowsExcept none) [freed],
      ∃ name, sheet.MentionsAt name index := by
    intro index found
    apply dependents_induct _ _ found
    · intro index row member name _ isMentioned
      exact ⟨name, row, (mem_rowsExcept.mp member).1, isMentioned⟩
    · intro index row member earlier other _ isMentioned _
      exact ⟨other.name, row, (mem_rowsExcept.mp member).1, isMentioned⟩
  have steady : ∀ index ∈ dependents (sheet.rowsExcept none) [freed],
      kept index → sheet.IsSteadyAt kept index := by
    intro index found isKept
    apply shifted.steady index isKept
    revert isKept
    apply dependents_induct _ _ found
    · intro index row member name isFreed isMentioned isKept
      obtain rfl : name = freed := List.mem_singleton.mp isFreed
      have mentionsFreed : sheet.MentionsAt name index :=
        ⟨row, (mem_rowsExcept.mp member).1, isMentioned⟩
      obtain ⟨other, isMoving, isOther⟩ :=
        shifted.reused index isKept mentionsFreed
      exact affects index other isKept ((shifted.refers index other
        isKept).mp ⟨name, isOther, mentionsFreed⟩) (.inl isMoving)
    · intro index row member earlier other isOther isMentioned ih isKept
      have isName := getElem?_names (mem_rowsExcept.mp isOther).1
      have mentionsOther : sheet.MentionsAt other.name index :=
        ⟨row, (mem_rowsExcept.mp member).1, isMentioned⟩
      have isKeptEarlier := shifted.separated.mentioned other.name index isKept
        mentionsOther earlier isName
      exact affects index earlier isKept ((shifted.refers index earlier
        isKept).mp ⟨other.name, isName, mentionsOther⟩)
        (.inr (ih isKeptEarlier))
  exact shifted.retains.trans (shifted.consistent.retains_recompileAll
    shifted.separated mentioned steady)

end IsShifted
end Worksheet
end GraphingCalculator
