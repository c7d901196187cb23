import GraphingCalculator.Proofs.Worksheet.Shifting

/-!
# Rows that lose the row they refer to

When a row was removed and no other row takes over its name, the name stays
without a meaning while rows move down.  The rows that referred to the removed
row still mention the name, directly or by way of other rows.  The pass that
follows reaches all of them, and each of them fails: the row that it was reached
from has failed before, or it mentions the name itself.
-/

namespace GraphingCalculator
namespace Worksheet

variable {start : Environment} {present : Text → Text}
variable {moving : Nat → Prop} {name freed : Text} {index place : Nat}
variable {origin sheet : Worksheet}

/-- The row at an index is in error and has no definition. -/
def IsFailedAt (sheet : Worksheet) (index : Nat) : Prop :=
  ∃ row, sheet.rows[index]? = some row ∧ row.error? ≠ none ∧
    sheet.environment.userDefinition? row.name = none

/-- A row that mentions a name without a meaning fails when it is compiled. -/
theorem isFailedAt_recompile
    (unknown : sheet.environment.definition? name = none)
    (mentioned : sheet.MentionsAt name index) :
    (sheet.recompile index).IsFailedAt index := by
  obtain ⟨row, found, mentioned⟩ := mentioned
  obtain ⟨inRange, -⟩ := List.getElem?_eq_some_iff.mp found
  obtain ⟨removes, notCompiled⟩ := compile_of_unknown unknown mentioned
  refine ⟨{ row with state := (row.compile sheet.environment).1 }, ?_, ?_, ?_⟩
  · rw [recompile_eq found, List.getElem?_set_self inRange]
  · rcases Row.compile_cases sheet.environment row with
      ⟨isBlank, -⟩ | ⟨error, ends⟩ | ⟨formula, definition, -, -, ends⟩
    · rw [not_isBlank_of_mentions mentioned] at isBlank
      contradiction
    · simp [Row.error?, ends]
    · exact absurd (by rw [ends]) (notCompiled formula)
  · rw [recompile_eq found, removes]
    exact Environment.userDefinition?_remove_self ..

/-- What no row carries keeps its definition while rows are compiled. -/
theorem userDefinition?_recompileAll (notRow : name ∉ sheet.names)
    (indices : List Nat) :
    (indices.foldl recompile sheet).environment.userDefinition? name =
      sheet.environment.userDefinition? name := by
  by_contra changes
  obtain ⟨index, -, row, found, rfl⟩ :=
    exists_compiled_of_userDefinition?_ne changes
  exact notRow (IsConsistent.name_mem found)

namespace IsConsistent

/-- A row that failed stays so while another row is compiled. -/
theorem isFailedAt_recompile_of_ne
    (consistent : IsConsistent start present (fun _ => False) sheet)
    (failed : sheet.IsFailedAt index) {other : Nat} (differs : index ≠ other) :
    (sheet.recompile other).IsFailedAt index := by
  obtain ⟨row, found, isError, undefined⟩ := failed
  cases foundOther : sheet.rows[other]? with
  | none =>
      rw [Worksheet.recompile, foundOther]
      exact ⟨row, found, isError, undefined⟩
  | some otherRow =>
      refine ⟨row, ?_, isError, ?_⟩
      · rw [recompile_eq foundOther, List.getElem?_set_ne (Ne.symm differs),
          found]
      · rw [recompile_eq foundOther, Row.userDefinition?_compile_of_ne
          (consistent.name_ne found foundOther differs), undefined]

/-- Rows fail one after the other, if each of them mentions a name without a
meaning or a row that failed before. -/
theorem isFailedAt_recompileAll
    (consistent : IsConsistent start present (fun _ => False) sheet)
    (unknown : sheet.environment.definition? freed = none)
    (notRow : freed ∉ sheet.names) {indices : List Nat}
    (causes : ∀ before index after, indices = before ++ index :: after →
      ∃ name, sheet.MentionsAt name index ∧
        (name = freed ∨ ∃ earlier ∈ before,
          sheet.names[earlier]? = some name)) :
    ∀ index ∈ indices,
      (indices.foldl Worksheet.recompile sheet).IsFailedAt index := by
  induction indices using List.reverseRecOn with
  | nil => simp
  | append_singleton rest last ih =>
      have failed := ih fun before index after split =>
        causes before index (after ++ [last]) (by simp [split])
      have recompiled : IsConsistent start present (fun _ => False)
          (rest.foldl Worksheet.recompile sheet) :=
        (consistent.recompileAll rest).mono fun _ isPending => isPending.1
      have sameOutline := outline_recompileAll sheet rest
      obtain ⟨name, mentioned, cause⟩ := causes rest last [] rfl
      have stillUnknown : (rest.foldl Worksheet.recompile
          sheet).environment.definition? name = none := by
        rcases cause with rfl | ⟨earlier, isEarlier, isName⟩
        · rw [Environment.definition?_eq_none_iff] at unknown ⊢
          rwa [userDefinition?_recompileAll notRow]
        · obtain ⟨row, found, -, undefined⟩ := failed earlier isEarlier
          rw [← names_of_outline sameOutline, getElem?_names found,
            Option.some.injEq] at isName
          subst isName
          exact Environment.definition?_eq_none_iff.mpr
            ⟨(recompiled.definable _ (name_mem found)).not_builtin, undefined⟩
      have failedLast := isFailedAt_recompile stillUnknown
        (mentioned.of_outline sameOutline.symm)
      intro index member
      rw [List.foldl_append, List.foldl_cons, List.foldl_nil]
      by_cases isLast : index = last
      · exact isLast ▸ failedLast
      · rw [List.mem_append, List.mem_singleton] at member
        exact recompiled.isFailedAt_recompile_of_ne
          (failed index (member.resolve_right isLast)) isLast

end IsConsistent

/-- The row at an index mentions a name, directly or by way of other rows. -/
def LeadsTo (sheet : Worksheet) (index : Nat) (name : Text) : Prop :=
  ∃ other, Relation.ReflTransGen sheet.RefersAt index other ∧
    sheet.MentionsAt name other

/-- The search reaches every row that leads to the name. -/
theorem LeadsTo.mem_dependents (leads : sheet.LeadsTo index name) :
    index ∈ dependents (sheet.rowsExcept none) [name] := by
  obtain ⟨other, path, row, found, mentioned⟩ := leads
  have reached : other ∈ dependents (sheet.rowsExcept none) [name] :=
    mem_dependents_of_mentions (mem_rowsExcept.mpr ⟨found, Option.some_ne_none
      other |>.symm⟩) List.mem_cons_self mentioned
  induction path using Relation.ReflTransGen.head_induction_on with
  | refl => exact reached
  | @head index next refers path ih =>
      obtain ⟨target, member, closed⟩ := dependents_closed ih
      obtain ⟨targetName, isName, source, foundSource, mentionsName⟩ := refers
      rw [getElem?_names (mem_rowsExcept.mp member).1, Option.some.injEq]
        at isName
      exact closed index source (mem_rowsExcept.mpr ⟨foundSource,
        Option.some_ne_none index |>.symm⟩) (isName ▸ mentionsName)

/-- A worksheet after some rows have moved down, none of which took over the
name of the removed row.  What referred to the name still does. -/
structure IsOrphaned (start : Environment) (present : Text → Text)
    (moving : Nat → Prop) (freed : Text) (origin : Worksheet) (place : Nat)
    (sheet : Worksheet) : Prop where
  consistent : IsConsistent start present (fun _ => False) sheet
  awaiting : ∀ later, place ≤ later →
    sheet.names[later]? = some (Row.defaultName (later + 2)) → moving later
  notRow : freed ∉ sheet.names
  refers : ∀ index other,
    origin.RefersAt index other → sheet.RefersAt index other
  mentioned : ∀ index, origin.MentionsAt freed index →
    sheet.MentionsAt freed index

namespace IsOrphaned

/-- One row moves down. -/
theorem moveDown (notTaken : ∀ later, moving later →
      freed ≠ Row.defaultName (later + 1))
    (orphaned : IsOrphaned start present moving freed origin place sheet) :
    IsOrphaned start present moving freed origin (place + 1)
      (sheet.moveDown place) := by
  have consistent := orphaned.consistent
  have awaiting (later : Nat) (after : place + 1 ≤ later)
      (isDefault : (sheet.moveDown place).names[later]? =
        some (Row.defaultName (later + 2))) : moving later :=
    orphaned.awaiting later (Nat.le_of_succ_le after)
      (consistent.getElem?_names_of_moveDown after isDefault)
  rcases moveDown_cases sheet place with unchanged | ⟨isDefault, renames⟩
  · rw [unchanged] at awaiting ⊢
    exact { orphaned with awaiting }
  · have differs : Row.defaultName (place + 2) ≠ Row.defaultName (place + 1) :=
      defaultName_ne (by omega)
    have replaceable := isReplaceable_defaultName (Row.defaultName (place + 2))
      (place + 1)
    have notNew := notTaken place (orphaned.awaiting place le_rfl isDefault)
    have notOld : freed ≠ Row.defaultName (place + 2) := by
      rintro rfl
      exact orphaned.notRow (List.mem_of_getElem? isDefault)
    refine ⟨consistent.moveDown place, awaiting, ?_, ?_, ?_⟩
    · intro isRow
      exact orphaned.notRow
        ((consistent.mem_names_rename_iff differs renames notNew).mp isRow).1
    · intro index other refers
      exact consistent.refersAt_rename differs renames replaceable
        (orphaned.refers index other refers)
    · intro index mentioned
      exact (consistent.mentionsAt_rename_iff_of_ne differs renames replaceable
        notNew).mpr ⟨orphaned.mentioned index mentioned, notOld⟩

theorem leadsTo
    (orphaned : IsOrphaned start present moving freed origin place sheet)
    (leads : origin.LeadsTo index freed) : sheet.LeadsTo index freed := by
  obtain ⟨other, path, mentioned⟩ := leads
  exact ⟨other, Relation.ReflTransGen.mono orphaned.refers _ _ path,
    orphaned.mentioned other mentioned⟩

/-- After the rows have moved, every row fails that referred to the name of the
removed one. -/
theorem isFailedAt_refreshDependents
    (orphaned : IsOrphaned start present moving freed origin place sheet)
    (unknown : sheet.environment.definition? freed = none)
    (leads : origin.LeadsTo index freed) :
    (sheet.refreshDependents freed none).IsFailedAt index := by
  apply orphaned.consistent.isFailedAt_recompileAll unknown orphaned.notRow ?_
    index (orphaned.leadsTo leads).mem_dependents
  intro before index after split
  obtain ⟨row, member, name, mentioned, cause⟩ :=
    exists_cause_of_dependents split
  refine ⟨name, ⟨row, (mem_rowsExcept.mp member).1, mentioned⟩, ?_⟩
  rcases cause with isFreed | ⟨earlier, isEarlier, other, isOther, rfl⟩
  · exact .inl (List.mem_singleton.mp isFreed)
  · exact .inr ⟨earlier, isEarlier,
      getElem?_names (mem_rowsExcept.mp isOther).1⟩

end IsOrphaned
end Worksheet
end GraphingCalculator
