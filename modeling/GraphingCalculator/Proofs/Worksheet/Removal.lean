import GraphingCalculator.Proofs.Environment.Operation
import GraphingCalculator.Proofs.Worksheet.Operation
import GraphingCalculator.Proofs.Worksheet.Orphaning

/-!
# Removing a row

Removing a row frees its name, and rows below that carry default names move down
one after the other.  If none of them takes over the freed name, then every row
that referred to the removed one fails.  A row that refers neither to the
removed one nor to any name that is taken over is spared: it keeps its value,
unless it follows a row that moves without being fresh.
-/

namespace GraphingCalculator
namespace Worksheet

variable {start : Environment} {present : Text → Text}
variable {index place : Nat} {removed row other : Row} {name : Text}
variable {sheet : Worksheet}

/-- The worksheet without the row at an index, before other rows move. -/
def without (sheet : Worksheet) (index : Nat) : Worksheet :=
  match sheet.rows[index]? with
  | none => sheet
  | some removed =>
      { environment := (sheet.environment.remove removed.name).2
        rows := sheet.rows.eraseIdx index }

/-- The row at a place comes after the one at an index, and carries the default
name of its place.  It moves down when that row is removed, if the default name
of the place above is free then. -/
def CanMove (sheet : Worksheet) (index place : Nat) : Prop :=
  index < place ∧ sheet.names[place]? = some (Row.defaultName (place + 1))

/-- A name that is free after the removal of a row, and that another row moves
to. -/
structure IsTakenOver (sheet : Worksheet) (index : Nat) (name : Text) :
    Prop where
  canMove : ∃ place, sheet.CanMove index place ∧ name = Row.defaultName place
  notRow : name ∉ (sheet.without index).names
  undefined : (sheet.without index).environment.userDefinition? name = none

/-- A row that the removal of another one does not concern.  It refers, directly
or by way of other rows, neither to the removed row nor to a name that is taken
over, and each row that it refers to is fresh if it refers in turn to a row that
can move. -/
structure IsSpared (sheet : Worksheet) (index : Nat) (row : Row) : Prop where
  removed : ∀ removed, sheet.rows[index]? = some removed →
    ¬ sheet.DependsOn row.name removed.name
  takenOver : ∀ name, sheet.IsTakenOver index name →
    ¬ sheet.DependsOn row.name name
  fresh : ∀ other ∈ sheet.rows,
    Relation.ReflTransGen sheet.Mentions row.name other.name →
      ∀ place, sheet.CanMove index place →
        sheet.DependsOn other.name (Row.defaultName (place + 1)) →
          other.IsFresh sheet.environment

section Without

variable (found : sheet.rows[index]? = some removed)
include found

theorem without_eq :
    sheet.without index =
      { environment := (sheet.environment.remove removed.name).2
        rows := sheet.rows.eraseIdx index } := by
  rw [without, found]

theorem mem_rows_of_without (member : row ∈ (sheet.without index).rows) :
    row ∈ sheet.rows := by
  rw [without_eq found] at member
  exact (List.eraseIdx_sublist sheet.rows index).subset member

/-- Every other row remains. -/
theorem exists_row_without (member : row ∈ sheet.rows)
    (differs : row.name ≠ removed.name) :
    ∃ place : Nat, (sheet.without index).rows[place]? = some row := by
  obtain ⟨place, foundRow⟩ := List.getElem?_of_mem member
  have remains : row ∈ (sheet.without index).rows := by
    rw [without_eq found, List.mem_eraseIdx_iff_getElem?]
    refine ⟨place, ?_, foundRow⟩
    rintro rfl
    rw [found, Option.some.injEq] at foundRow
    exact differs (foundRow ▸ rfl)
  exact List.getElem?_of_mem remains

/-- What a row mentions that remains, it also mentioned before. -/
theorem mentions_of_mentionsAt {target : Text}
    (foundRow : (sheet.without index).rows[place]? = some row)
    (mentioned : (sheet.without index).MentionsAt target place) :
    sheet.Mentions row.name target := by
  obtain ⟨other, foundOther, mentioned⟩ := mentioned
  obtain rfl : row = other := Option.some.inj (foundRow.symm.trans foundOther)
  exact ⟨row, mem_rows_of_without found (List.mem_of_getElem? foundRow), rfl,
    mentioned⟩

theorem names_without :
    (sheet.without index).names = sheet.names.eraseIdx index := by
  rw [without_eq found]
  exact (List.eraseIdx_map ..).symm

theorem limits_without :
    (sheet.without index).environment.limits = sheet.environment.limits := by
  rw [without_eq found]
  exact Environment.limits_remove ..

theorem userDefinition?_without_self :
    (sheet.without index).environment.userDefinition? removed.name = none := by
  rw [without_eq found]
  exact Environment.userDefinition?_remove_self ..

theorem userDefinition?_without_of_ne (differs : name ≠ removed.name) :
    (sheet.without index).environment.userDefinition? name =
      sheet.environment.userDefinition? name := by
  rw [without_eq found]
  exact Environment.userDefinition?_remove_of_ne differs _

/-- A removal consists of the moves of the rows below and of a pass. -/
theorem perform_removeRow_eq :
    sheet.perform (.removeRow index) =
      ((List.range' index ((sheet.without index).rows.length - index)).foldl
        moveDown (sheet.without index)).refreshDependents removed.name
          none := by
  rw [perform, removeRow?, found, without_eq found]
  rfl

/-- The rows that can move, by their places after the removal. -/
theorem canMove_succ_iff :
    sheet.CanMove index (place + 1) ↔
      index ≤ place ∧ (sheet.without index).names[place]? =
        some (Row.defaultName (place + 2)) := by
  rw [CanMove, Nat.lt_succ_iff, names_without found]
  apply and_congr_right
  intro after
  rw [List.getElem?_eraseIdx_of_ge after]

end Without

namespace IsConsistent

variable (consistent : IsConsistent start present (fun _ => False) sheet)
include consistent

/-- Rows are told apart by their names. -/
theorem row_eq (member : row ∈ sheet.rows) (memberOther : other ∈ sheet.rows)
    (sameName : row.name = other.name) : row = other :=
  List.inj_on_of_nodup_map consistent.distinct member memberOther sameName

variable (found : sheet.rows[index]? = some removed)
include found

theorem without :
    IsConsistent start present (fun _ => False) (sheet.without index) := by
  rw [without_eq found]
  exact consistent.removeFirst found

theorem not_mem_names_without :
    removed.name ∉ (sheet.without index).names := by
  intro isRow
  rw [names_without found, List.mem_eraseIdx_iff_getElem?] at isRow
  obtain ⟨place, differs, isName⟩ := isRow
  obtain ⟨other, foundOther, sameName⟩ := Option.map_eq_some_iff.mp
    (List.getElem?_map ▸ isName)
  exact consistent.name_ne foundOther found differs sameName

/-- A row that remains mentions what it mentioned before. -/
theorem mentionsAt_of_mentions {target : Text}
    (foundRow : (sheet.without index).rows[place]? = some row)
    (mentioned : sheet.Mentions row.name target) :
    (sheet.without index).MentionsAt target place := by
  obtain ⟨other, memberOther, sameName, mentioned⟩ := mentioned
  have member := mem_rows_of_without found (List.mem_of_getElem? foundRow)
  obtain rfl := consistent.row_eq memberOther member sameName
  exact ⟨other, foundRow, mentioned⟩

/-- What depends on the removed row leads to its name among the rows that
remain. -/
theorem leadsTo_without
    (foundRow : (sheet.without index).rows[place]? = some row)
    (depends : sheet.DependsOn row.name removed.name) :
    (sheet.without index).LeadsTo place removed.name := by
  generalize isName : row.name = source at depends
  induction depends using Relation.TransGen.head_induction_on
      generalizing place row with
  | single mentioned =>
      exact ⟨place, .refl, consistent.mentionsAt_of_mentions found foundRow
        (isName ▸ mentioned)⟩
  | @head source next mentioned depends ih =>
      have direct := consistent.mentionsAt_of_mentions found foundRow
        (isName ▸ mentioned)
      by_cases isRemoved : next = removed.name
      · exact ⟨place, .refl, isRemoved ▸ direct⟩
      · obtain ⟨other, member, rfl⟩ := List.mem_map.mp
          (DependsOn.mem_names depends)
        obtain ⟨later, foundLater⟩ :=
          exists_row_without found member isRemoved
        obtain ⟨last, path, mentionsName⟩ := ih foundLater rfl
        exact ⟨last, .head ⟨other.name, getElem?_names foundLater, direct⟩ path,
          mentionsName⟩

end IsConsistent

/-- The place of a row that remains next to a removed one and that another row
refers to, or of that row itself. -/
def IsReached (sheet : Worksheet) (index : Nat) (row : Row) (place : Nat) :
    Prop :=
  ∃ other, (sheet.without index).rows[place]? = some other ∧
    Relation.ReflTransGen sheet.Mentions row.name other.name

/-- The row at a place after the removal refers to a row that can move. -/
def IsAffected (sheet : Worksheet) (index place : Nat) : Prop :=
  ∃ later, sheet.CanMove index (later + 1) ∧
    Relation.TransGen (sheet.without index).RefersAt place later

theorem isAffected_of_refersAt {later : Nat}
    (refers : (sheet.without index).RefersAt place later)
    (cause : sheet.CanMove index (later + 1) ∨ sheet.IsAffected index later) :
    sheet.IsAffected index place := by
  rcases cause with canMove | ⟨last, canMove, path⟩
  · exact ⟨later, canMove, .single refers⟩
  · exact ⟨last, canMove, .head refers path⟩

section Spared

variable (found : sheet.rows[index]? = some removed)
include found

theorem dependsOn_of_mentionsAt {target : Text}
    (reached : sheet.IsReached index row place)
    (mentioned : (sheet.without index).MentionsAt target place) :
    sheet.DependsOn row.name target := by
  obtain ⟨other, foundOther, path⟩ := reached
  exact Relation.TransGen.tail' path
    (mentions_of_mentionsAt found foundOther mentioned)

/-- What a reached row mentions is reached. -/
theorem isReached_of_mentionsAt {later : Nat} {target : Text}
    (reached : sheet.IsReached index row place)
    (mentioned : (sheet.without index).MentionsAt target place)
    (isName : (sheet.without index).names[later]? = some target) :
    sheet.IsReached index row later := by
  obtain ⟨other, foundOther, sameName⟩ :=
    Option.map_eq_some_iff.mp (List.getElem?_map ▸ isName)
  have depends := dependsOn_of_mentionsAt found reached mentioned
  exact ⟨other, foundOther, sameName ▸ depends.to_reflTransGen⟩

/-- References among the rows that remain are dependencies. -/
theorem dependsOn_of_refersAt {later : Nat}
    (foundRow : (sheet.without index).rows[place]? = some row)
    (path : Relation.TransGen (sheet.without index).RefersAt place later)
    (isName : (sheet.without index).names[later]? = some name) :
    sheet.DependsOn row.name name := by
  induction path generalizing name with
  | single refers =>
      obtain ⟨target, isTarget, mentioned⟩ := refers
      rw [isName, Option.some.injEq] at isTarget
      subst isTarget
      exact .single (mentions_of_mentionsAt found foundRow mentioned)
  | tail path refers ih =>
      obtain ⟨target, isTarget, mentioned⟩ := refers
      rw [isName, Option.some.injEq] at isTarget
      subst isTarget
      obtain ⟨middle, foundMiddle, isMentioned⟩ := mentioned
      exact .tail (ih (getElem?_names foundMiddle))
        (mentions_of_mentionsAt found foundMiddle
          ⟨middle, foundMiddle, isMentioned⟩)

end Spared

namespace IsConsistent

variable (consistent : IsConsistent start present (fun _ => False) sheet)
variable (isClosed : start.IsClosed)
variable (found : sheet.rows[index]? = some removed)
include consistent isClosed found

/-- The names that a row reads keep their meaning when a row is removed on which
it does not depend. -/
theorem meaning?_without (member : row ∈ sheet.rows)
    (independent : ¬ sheet.DependsOn row.name removed.name) {target : Text}
    (reads : row.Reads sheet.environment target) :
    sheet.environment.meaning? target =
      (sheet.without index).environment.meaning? target := by
  have differs : target ≠ removed.name := by
    rintro rfl
    exact independent (consistent.dependsOn_of_reads
      (consistent.keepsApart isClosed) member reads (name_mem found))
  exact Environment.meaning?_congr
    (userDefinition?_without_of_ne found differs).symm

/-- A row that does not depend on the removed one retains its values at
first. -/
theorem retains_without (member : row ∈ sheet.rows)
    (independent : ¬ sheet.DependsOn row.name removed.name) :
    row.Retains sheet.environment (sheet.without index).environment row := by
  obtain ⟨place, foundRow⟩ := List.getElem?_of_mem member
  have settled := consistent.settled place row foundRow id
  apply Row.Retains.of_formulas id Iff.rfl
  intro before after isBefore isAfter x
  obtain rfl : before = after := Option.some.inj (isBefore.symm.trans isAfter)
  rw [Environment.evaluate_congr (limits_without found).symm
    fun name refers target reaches => consistent.meaning?_without isClosed found
      member independent ⟨name, settled.mentioned before isBefore name refers,
        reaches⟩]

/-- A fresh row that does not depend on the removed one is fresh at first. -/
theorem isFresh_without
    (foundRow : (sheet.without index).rows[place]? = some row)
    (independent : ¬ sheet.DependsOn row.name removed.name)
    (fresh : row.IsFresh sheet.environment) :
    row.IsFresh (sheet.without index).environment := by
  have member := mem_rows_of_without found (List.mem_of_getElem? foundRow)
  have isRow := name_mem foundRow
  have differs : row.name ≠ removed.name := by
    intro same
    exact consistent.not_mem_names_without found (same ▸ isRow)
  exact fresh.congr ((consistent.without found).definable _ isRow)
    (limits_without found).symm (userDefinition?_without_of_ne found differs)
    fun target _ reads =>
      consistent.meaning?_without isClosed found member independent reads

/-- Before the first row moves, everything is as a spared row needs it. -/
theorem isShifted_without (spared : sheet.IsSpared index row) :
    IsShifted start present (sheet.IsReached index row)
      (fun later => sheet.CanMove index (later + 1)) (sheet.IsAffected index)
      removed.name (sheet.without index) index (sheet.without index) := by
  have remaining := consistent.without found
  have separated : (sheet.without index).IsSeparated
      (sheet.IsReached index row) := by
    apply remaining.isSeparated (remaining.keepsApart isClosed)
    intro target place reached mentioned later isName
    exact isReached_of_mentionsAt found reached mentioned isName
  refine
    { consistent := remaining
      separated
      refers := fun _ _ _ => Iff.rfl
      awaiting := fun later after isDefault =>
        (canMove_succ_iff found).mpr ⟨after, isDefault⟩
      untaken := fun later after isDefault notRow unclaimed place reached
        mentioned => ?_
      reused := fun place reached mentioned => ?_
      steady := fun place reached isAffected => ?_
      retains := .refl _ _ }
  · -- The name would be taken over.
    have canMove := (canMove_succ_iff found).mpr ⟨after, isDefault⟩
    exact spared.takenOver _ ⟨⟨later + 1, canMove, rfl⟩, notRow,
      (remaining.isUnclaimed_iff notRow).mp unclaimed⟩
      (dependsOn_of_mentionsAt found reached mentioned)
  · exact absurd (dependsOn_of_mentionsAt found reached mentioned)
      (spared.removed removed found)
  · obtain ⟨other, foundOther, path⟩ := reached
    obtain ⟨later, canMove, refers⟩ := isAffected
    obtain ⟨-, isDefault⟩ := (canMove_succ_iff found).mp canMove
    have member := mem_rows_of_without found (List.mem_of_getElem? foundOther)
    have fresh := spared.fresh other member path (later + 1) canMove
      (dependsOn_of_refersAt found foundOther refers isDefault)
    have independent : ¬ sheet.DependsOn other.name removed.name :=
      fun depends => spared.removed removed found
        (Relation.TransGen.trans_right path depends)
    exact separated.isSteadyAt ⟨other, foundOther, path⟩ foundOther
      (consistent.isFresh_without isClosed found foundOther independent fresh)

/-- A spared row retains its values, and it refers to the same rows as
before. -/
theorem retains_removeRow
    (foundRow : (sheet.without index).rows[place]? = some row)
    (spared : sheet.IsSpared index row) :
    (∃ later, (sheet.perform (.removeRow index)).rows[place]? = some later ∧
        row.Retains sheet.environment
          (sheet.perform (.removeRow index)).environment later) ∧
      ∀ other, (sheet.perform (.removeRow index)).RefersAt place other ↔
        (sheet.without index).RefersAt place other := by
  have member := mem_rows_of_without found (List.mem_of_getElem? foundRow)
  have reached : sheet.IsReached index row place := ⟨row, foundRow, .refl⟩
  have affects (first second : Nat) (_ : sheet.IsReached index row first)
      (refers : (sheet.without index).RefersAt first second) :=
    isAffected_of_refersAt refers
  have shifted := moveDownAll_induct
    (fun _ _ shifted => IsShifted.moveDown affects isClosed shifted)
    (consistent.isShifted_without isClosed found spared)
    ((sheet.without index).rows.length - index)
  obtain ⟨later, foundLater, retains⟩ :=
    shifted.refreshDependents affects place row reached foundRow
  have independent := spared.removed removed found
  rw [perform_removeRow_eq found]
  refine ⟨⟨later, foundLater, (consistent.retains_without isClosed found member
    independent).trans retains⟩, fun other => ?_⟩
  rw [← shifted.refers place other reached]
  have sameOutline := outline_refreshDependents
    ((List.range' index ((sheet.without index).rows.length - index)).foldl
      Worksheet.moveDown (sheet.without index)) removed.name none
  exact ⟨RefersAt.of_outline sameOutline, RefersAt.of_outline sameOutline.symm⟩

omit isClosed in
/-- If no row takes over the name of the removed one, then the name is left
without a meaning, and what depended on it fails. -/
theorem isFailedAt_removeRow
    (notTaken : ¬ sheet.IsTakenOver index removed.name) :
    removed.name ∉ (sheet.perform (.removeRow index)).names ∧
      (sheet.perform (.removeRow index)).environment.userDefinition?
          removed.name = none ∧
        ∀ place row, (sheet.without index).rows[place]? = some row →
          sheet.DependsOn row.name removed.name →
            (sheet.perform (.removeRow index)).IsFailedAt place := by
  have notRow := consistent.not_mem_names_without found
  have isRow := name_mem found
  have stays (later : Nat) (canMove : sheet.CanMove index (later + 1)) :
      removed.name ≠ Row.defaultName (later + 1) := by
    intro same
    exact notTaken ⟨⟨later + 1, canMove, same⟩, notRow,
      userDefinition?_without_self found⟩
  have before : IsOrphaned start present
      (fun later => sheet.CanMove index (later + 1)) removed.name
      (sheet.without index) index (sheet.without index) := by
    refine ⟨consistent.without found, fun later after isDefault => ?_, notRow,
      fun _ _ => id, fun _ => id⟩
    exact (canMove_succ_iff found).mpr ⟨after, isDefault⟩
  have orphaned := moveDownAll_induct
    (fun _ _ orphaned => IsOrphaned.moveDown stays orphaned) before
    ((sheet.without index).rows.length - index)
  have undefined := (orphaned.consistent.isUnclaimed_iff orphaned.notRow).mp
    (consistent.isUnclaimed_of_mem_names isRow)
  have unknown := Environment.definition?_eq_none_iff.mpr
    ⟨(consistent.definable _ isRow).not_builtin, undefined⟩
  rw [perform_removeRow_eq found]
  refine ⟨?_, ?_, fun place row foundRow depends => ?_⟩
  · rw [names_of_outline (outline_refreshDependents _ removed.name none)]
    exact orphaned.notRow
  · exact (userDefinition?_recompileAll orphaned.notRow _).trans undefined
  · exact orphaned.isFailedAt_refreshDependents unknown
      (consistent.leadsTo_without found foundRow depends)

end IsConsistent

/-- What the removal of a row does to the rows that remain.  If no row takes
over the name of the removed row, then every row that depended on it is in
error, and no row carries the name.  A row that the removal spares has the same
values as before or is in error, and refers to the same rows. -/
theorem evaluate_removeRow {start : Environment} (isClosed : start.IsClosed)
    (operations : List Operation) {index : Nat} {removed : Row} :
    let sheet := (ofEnvironment start).performAll operations
    let after := sheet.perform (.removeRow index)
    sheet.rows[index]? = some removed →
      (¬ sheet.IsTakenOver index removed.name →
        removed.name ∉ after.names ∧
          after.environment.userDefinition? removed.name = none ∧
            ∀ place row, (sheet.without index).rows[place]? = some row →
              sheet.DependsOn row.name removed.name →
                after.IsFailedAt place) ∧
        ∀ place row, (sheet.without index).rows[place]? = some row →
          sheet.IsSpared index row →
            (∃ later, after.rows[place]? = some later ∧
                row.Retains sheet.environment after.environment later) ∧
              ∀ other, after.RefersAt place other ↔
                (sheet.without index).RefersAt place other := by
  intro sheet after found
  have consistent : IsConsistent start _ (fun _ => False) sheet :=
    (isConsistent_ofEnvironment start).performAll operations
  exact ⟨consistent.isFailedAt_removeRow found, fun place row foundRow =>
    consistent.retains_removeRow isClosed found foundRow⟩

/-- A constant is removed.  The row that uses it fails, and a row that follows
another one to its new name keeps its value. -/
theorem evaluate_removeRow_constant :
    (Environment.empty {}).IsClosed ∧
      let sheet := (ofEnvironment (.empty {})).performAll
        [.pushRow, .edit 0 "a = 1".toList, .pushRow, .edit 1 "2x".toList,
          .pushRow, .edit 2 "a x".toList, .pushRow,
          .edit 3 "y2(x) + 1".toList]
      let after := sheet.perform (.removeRow 0)
      ∃ removed row, sheet.rows[0]? = some removed ∧
        ¬ sheet.IsTakenOver 0 removed.name ∧ after.IsFailedAt 1 ∧
          (sheet.without 0).rows[2]? = some row ∧ sheet.IsSpared 0 row ∧
            ∃ later, after.rows[2]? = some later ∧
              row.Retains sheet.environment after.environment later := by
  have isClosed : (Environment.empty {}).IsClosed :=
    fun name definition found => by cases found
  refine ⟨isClosed, ?_⟩
  intro sheet after
  have remainingNames : (sheet.without 0).names =
      ["y2".toList, "y3".toList, "y4".toList] := by
    decide +kernel
  have identifiersOnly : ∀ row ∈ sheet.rows, ∀ piece ∈ identifiers row.body,
      row.name = "y3".toList ∧ piece.2 = "a".toList ∨
        row.name = "y4".toList ∧ piece.2 = "y2".toList := by
    decide +kernel
  have allFresh : ∀ row ∈ sheet.rows,
      (row.compile sheet.environment).1 = row.state ∧
        (row.compile sheet.environment).2.userDefinition? row.name =
          sheet.environment.userDefinition? row.name := by
    decide +kernel
  have usesConstant : ∀ row ∈ sheet.rows, row.name = "y3".toList →
      mentions row.body "a".toList = true := by
    decide +kernel
  have mentionsOnly {name target : Text}
      (mentioned : sheet.Mentions name target) :
      name = "y3".toList ∧ target = "a".toList ∨
        name = "y4".toList ∧ target = "y2".toList := by
    obtain ⟨row, member, rfl, mentioned⟩ := mentioned
    obtain ⟨piece, isPiece, isName⟩ := List.any_eq_true.mp mentioned
    exact of_decide_eq_true isName ▸ identifiersOnly row member piece isPiece
  have dependsOnly {target : Text}
      (depends : sheet.DependsOn "y4".toList target) :
      target = "y2".toList := by
    induction depends with
    | single mentioned => simpa using mentionsOnly mentioned
    | tail depends mentioned ih => simpa [ih] using mentionsOnly mentioned
  have rowAt {rows : List Row} {place : Nat} {name : Text}
      (isName : rows[place]?.map Row.name = some name) :
      ∃ row, rows[place]? = some row ∧ row.name = name :=
    Option.map_eq_some_iff.mp isName
  obtain ⟨removed, found, isRemoved⟩ := rowAt
    (show sheet.rows[0]?.map Row.name = some "a".toList by decide +kernel)
  obtain ⟨user, foundUser, isUser⟩ := rowAt
    (show (sheet.without 0).rows[1]?.map Row.name = some "y3".toList by
      decide +kernel)
  obtain ⟨row, foundRow, isRow⟩ := rowAt
    (show (sheet.without 0).rows[2]?.map Row.name = some "y4".toList by
      decide +kernel)
  have notTaken : ¬ sheet.IsTakenOver 0 removed.name := by
    rintro ⟨⟨place, -, isDefault⟩, -, -⟩
    rw [isRemoved] at isDefault
    exact absurd (List.cons.inj isDefault).1 (by decide)
  have uses : sheet.DependsOn user.name removed.name := by
    have member := mem_rows_of_without found (List.mem_of_getElem? foundUser)
    exact .single ⟨user, member, rfl,
      isRemoved ▸ usesConstant user member isUser⟩
  have spared : sheet.IsSpared 0 row := by
    refine ⟨?_, ?_, ?_⟩
    · intro other foundOther depends
      obtain rfl := Option.some.inj (found.symm.trans foundOther)
      have impossible := dependsOnly (isRow ▸ depends)
      simp [isRemoved] at impossible
    · intro name taken depends
      have isSecond : name = "y2".toList := dependsOnly (isRow ▸ depends)
      apply taken.notRow
      rw [remainingNames, isSecond]
      exact List.mem_cons_self
    · intro other member _ place _ _
      obtain ⟨sameState, sameDefinition⟩ := allFresh other member
      exact ⟨sameState, sameDefinition⟩
  obtain ⟨orphans, spares⟩ := evaluate_removeRow isClosed
    [.pushRow, .edit 0 "a = 1".toList, .pushRow, .edit 1 "2x".toList,
      .pushRow, .edit 2 "a x".toList, .pushRow,
      .edit 3 "y2(x) + 1".toList] found
  obtain ⟨-, -, fails⟩ := orphans notTaken
  exact ⟨removed, row, found, notTaken, fails 1 user foundUser uses, foundRow,
    spared, (spares 2 row foundRow spared).1⟩

/-- A moved row takes over the references to the removed one, or a reference to
a name without a meaning.  A row that is not fresh is brought up to date, and a
definition from the start that lost what it refers to follows the name. -/
theorem evaluate?_removeRow_changes :
    (let sheet := (ofEnvironment (.empty {})).performAll
      [.pushRow, .edit 0 "x".toList, .pushRow, .edit 1 "2x".toList, .pushRow,
        .edit 2 "3x".toList, .pushRow, .edit 3 "y2(x) + 1".toList]
    sheet.evaluate? 3 1 = some (.ok 3) ∧
      (sheet.perform (.removeRow 1)).evaluate? 2 1 = some (.ok 4)) ∧
    (let sheet := (ofEnvironment (.empty {})).performAll
      [.pushRow, .edit 0 "a = 1".toList, .pushRow, .edit 1 "c = 2".toList,
        .pushRow, .edit 2 "3x".toList, .pushRow,
        .edit 3 "y2(1) + y3(1)".toList]
    sheet.evaluate? 3 1 ≠ some (.ok 6) ∧
      (sheet.perform (.removeRow 0)).evaluate? 2 1 = some (.ok 6)) ∧
    (let sheet := (ofEnvironment (.empty {})).performAll
      [.pushRow, .edit 0 "p = 1".toList, .pushRow, .edit 1 "a = 1".toList,
        .pushRow, .edit 2 "c = a + y4".toList, .pushRow, .edit 3 "a".toList,
        .pushRow, .edit 4 "c x".toList, .edit 1 "a = 2".toList]
    sheet.evaluate? 4 1 = some (.ok 3) ∧
      (sheet.perform (.removeRow 0)).evaluate? 3 1 = some (.ok 4)) ∧
    (let start := (Environment.empty {}).performAll
      [.define "y1".toList "x".toList, .define "g".toList "y1(x)".toList,
        .remove "y1".toList]
    let sheet := (ofEnvironment start).performAll
      [.pushRow, .edit 0 "2x".toList, .pushRow, .edit 1 "5x".toList, .pushRow,
        .edit 2 "z = g(x)".toList]
    sheet.evaluate? 2 1 = some (.ok 2) ∧
      (sheet.perform (.removeRow 0)).evaluate? 1 1 = some (.ok 5)) := by
  refine ⟨⟨?_, ?_⟩, ⟨?_, ?_⟩, ⟨?_, ?_⟩, ?_, ?_⟩
  all_goals decide +kernel

end Worksheet
end GraphingCalculator
