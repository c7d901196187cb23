import GraphingCalculator.Proofs.Worksheet.Dependence
import GraphingCalculator.Proofs.Worksheet.Overtaking

/-!
# Passes over the dependents of a row

After a row was typed, the rows that depend on it are compiled in one pass, in
the order of a search.  A row that the pass does not reach reads nothing that
the pass changes.  A row that it reaches is fresh afterwards, unless the pass
reaches a row later on which the first one depends, as it happens when rows
depend on each other in a circle.
-/

namespace GraphingCalculator

/-- A row without what its compilation decides. -/
def Row.outline (row : Row) : Row :=
  { row with state := .blank }

namespace Worksheet

/-- The row at the first index depends on the row at the second index. -/
def DependsAt (sheet : Worksheet) (index other : Nat) : Prop :=
  ∃ row otherRow, sheet.rows[index]? = some row ∧
    sheet.rows[other]? = some otherRow ∧
      sheet.DependsOn row.name otherRow.name

/-- A row is reached in time by a pass if the pass reaches none of the rows
later on which it depends. -/
def IsInTime (sheet : Worksheet) (pass : List Nat) (index : Nat) : Prop :=
  ∀ later, [index, later].Sublist pass → ¬ sheet.DependsAt index later

section Outline

variable {first second : Worksheet}

theorem exists_outline_of_outline
    (same : first.rows.map Row.outline = second.rows.map Row.outline)
    {index : Nat} {row : Row} (found : first.rows[index]? = some row) :
    ∃ other, second.rows[index]? = some other ∧
      other.outline = row.outline := by
  have isOutline :
      (second.rows.map Row.outline)[index]? = some row.outline := by
    rw [← same, List.getElem?_map, found, Option.map_some]
  rwa [List.getElem?_map, Option.map_eq_some_iff] at isOutline

theorem exists_row_of_outline
    (same : first.rows.map Row.outline = second.rows.map Row.outline)
    {index : Nat} {row : Row} (found : first.rows[index]? = some row) :
    ∃ other, second.rows[index]? = some other ∧ other.name = row.name ∧
      other.body = row.body := by
  obtain ⟨other, foundOther, isOutline⟩ := exists_outline_of_outline same found
  exact ⟨other, foundOther,
    show other.outline.name = row.name by rw [isOutline]; rfl,
    show other.outline.body = row.body by rw [isOutline]; rfl⟩

theorem names_of_outline
    (same : first.rows.map Row.outline = second.rows.map Row.outline) :
    first.names = second.names := by
  have sameNames := congrArg (List.map Row.name) same
  rwa [List.map_map, List.map_map] at sameNames

theorem Mentions.of_outline
    (same : first.rows.map Row.outline = second.rows.map Row.outline)
    {name target : Text} (mentioned : first.Mentions name target) :
    second.Mentions name target := by
  obtain ⟨row, member, rfl, mentioned⟩ := mentioned
  obtain ⟨index, found⟩ := List.getElem?_of_mem member
  obtain ⟨other, foundOther, sameName, sameBody⟩ :=
    exists_row_of_outline same found
  exact ⟨other, List.mem_of_getElem? foundOther, sameName, sameBody ▸ mentioned⟩

theorem DependsAt.of_outline
    (same : first.rows.map Row.outline = second.rows.map Row.outline)
    {index other : Nat} (depends : first.DependsAt index other) :
    second.DependsAt index other := by
  obtain ⟨row, otherRow, found, foundOther, depends⟩ := depends
  obtain ⟨sameRow, foundRow, rowName, -⟩ := exists_row_of_outline same found
  obtain ⟨sameOther, foundSame, otherName, -⟩ :=
    exists_row_of_outline same foundOther
  refine ⟨sameRow, sameOther, foundRow, foundSame, ?_⟩
  rw [rowName, otherName]
  exact Relation.TransGen.mono
    (fun _ _ mentioned => Mentions.of_outline same mentioned) _ _ depends

theorem IsInTime.of_outline
    (same : first.rows.map Row.outline = second.rows.map Row.outline)
    {pass : List Nat} {index : Nat} (inTime : first.IsInTime pass index) :
    second.IsInTime pass index := by
  intro later isLater depends
  exact inTime later isLater (depends.of_outline same.symm)

theorem mentioning_outline (rows : IndexedRows) (name : Text) :
    IndexedRows.mentioning (rows.map (Prod.map id Row.outline)) name =
      (rows.mentioning name).map (Prod.map id Row.outline) := by
  rw [IndexedRows.mentioning, IndexedRows.mentioning, List.filter_map]
  rfl

theorem notMentioning_outline (rows : IndexedRows) (name : Text) :
    IndexedRows.notMentioning (rows.map (Prod.map id Row.outline)) name =
      (rows.notMentioning name).map (Prod.map id Row.outline) := by
  rw [IndexedRows.notMentioning, IndexedRows.notMentioning, List.filter_map]
  rfl

/-- A search sees nothing of a row but its outline. -/
theorem dependents_outline (rows : IndexedRows) (pending : List Text) :
    dependents (rows.map (Prod.map id Row.outline)) pending =
      dependents rows pending := by
  induction rows, pending using dependents.induct with
  | case1 => rw [dependents, dependents]
  | case2 rows name pending found ih =>
      rw [dependents, dependents, mentioning_outline, notMentioning_outline,
        List.map_map, ← List.map_reverse, List.map_map]
      exact congrArg _ ih

theorem rowsExcept_outline (sheet : Worksheet) (skipped : Option Nat) :
    (sheet.rowsExcept skipped).map (Prod.map id Row.outline) =
      ((sheet.rows.map Row.outline).zipIdx.map Prod.swap).filter
        fun (index, _) => skipped ≠ some index := by
  have sameEntries : (sheet.rows.map Row.outline).zipIdx.map Prod.swap =
      (sheet.rows.zipIdx.map Prod.swap).map (Prod.map id Row.outline) := by
    rw [List.zipIdx_map, List.map_map, List.map_map]
    rfl
  rw [sameEntries, List.filter_map]
  rfl

end Outline

variable {start : Environment} {present : Text → Text}
variable {sheet : Worksheet}

theorem outline_recompile (sheet : Worksheet) (index : Nat) :
    (sheet.recompile index).rows.map Row.outline =
      sheet.rows.map Row.outline := by
  cases found : sheet.rows[index]? with
  | none => rw [recompile, found]
  | some row =>
      rw [recompile_eq found, List.map_set]
      obtain ⟨inRange, rfl⟩ := List.getElem?_eq_some_iff.mp found
      have inOutline : index < (sheet.rows.map Row.outline).length := by
        rwa [List.length_map]
      calc (sheet.rows.map Row.outline).set index _
          = (sheet.rows.map Row.outline).set index
              (sheet.rows.map Row.outline)[index] := by
            rw [List.getElem_map]
            rfl
        _ = sheet.rows.map Row.outline := List.set_getElem_self inOutline

theorem outline_recompileAll (sheet : Worksheet) (indices : List Nat) :
    (indices.foldl recompile sheet).rows.map Row.outline =
      sheet.rows.map Row.outline := by
  induction indices generalizing sheet with
  | nil => rfl
  | cons index rest ih => exact (ih _).trans (outline_recompile sheet index)

theorem outline_refreshDependents (sheet : Worksheet) (name : Text)
    (skipped : Option Nat) :
    (sheet.refreshDependents name skipped).rows.map Row.outline =
      sheet.rows.map Row.outline :=
  outline_recompileAll sheet _

/-- Rows that are not compiled are left alone. -/
theorem getElem?_recompileAll {indices : List Nat} {index : Nat}
    (notCompiled : index ∉ indices) (sheet : Worksheet) :
    (indices.foldl recompile sheet).rows[index]? = sheet.rows[index]? := by
  induction indices generalizing sheet with
  | nil => rfl
  | cons first rest ih =>
      rw [List.mem_cons, not_or] at notCompiled
      rw [List.foldl_cons, ih notCompiled.2]
      cases found : sheet.rows[first]? with
      | none => rw [recompile, found]
      | some row =>
          rw [recompile_eq found, List.getElem?_set_ne (Ne.symm notCompiled.1)]

/-- A definition changes only if the row that carries its name is compiled. -/
theorem exists_compiled_of_userDefinition?_ne {indices : List Nat} {name : Text}
    (changes :
      (indices.foldl recompile sheet).environment.userDefinition? name ≠
        sheet.environment.userDefinition? name) :
    ∃ index ∈ indices, ∃ row, sheet.rows[index]? = some row ∧
      row.name = name := by
  induction indices generalizing sheet with
  | nil => exact absurd rfl changes
  | cons first rest ih =>
      by_cases sameLater : (rest.foldl recompile
          (sheet.recompile first)).environment.userDefinition? name =
            (sheet.recompile first).environment.userDefinition? name
      · rw [List.foldl_cons, sameLater] at changes
        refine ⟨first, by simp, ?_⟩
        cases found : sheet.rows[first]? with
        | none =>
            rw [recompile, found] at changes
            exact absurd rfl changes
        | some row =>
            refine ⟨row, rfl, ?_⟩
            by_contra differs
            rw [recompile_eq found] at changes
            exact changes (Row.userDefinition?_compile_of_ne (Ne.symm differs))
      · obtain ⟨index, member, row, found, isName⟩ := ih sameLater
        obtain ⟨other, foundOther, sameName, -⟩ :=
          exists_row_of_outline (outline_recompile sheet first) found
        exact ⟨index, List.mem_cons_of_mem first member, other, foundOther,
          sameName.trans isName⟩

namespace IsConsistent

end IsConsistent

theorem mem_rowsExcept {skipped : Option Nat} {index : Nat} {row : Row} :
    (index, row) ∈ sheet.rowsExcept skipped ↔
      sheet.rows[index]? = some row ∧ skipped ≠ some index := by
  simp [rowsExcept, List.mem_zipIdx_iff_getElem?]

/-- The places of the other rows that depend on the row at an index, in the
order of the search. -/
def followers (sheet : Worksheet) (index : Nat) : List Nat :=
  dependents (sheet.rowsExcept (some index))
    (sheet.rows[index]?.map Row.name).toList

/-- The places of the rows that an edit compiles: first the row that is typed
into, and then the other rows that depend on it. -/
def pass (sheet : Worksheet) (index : Nat) : List Nat :=
  index :: sheet.followers index

namespace IsConsistent

end IsConsistent
end Worksheet
end GraphingCalculator
