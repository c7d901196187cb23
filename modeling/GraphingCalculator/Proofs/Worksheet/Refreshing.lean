import GraphingCalculator.Proofs.Worksheet.Overtaking
import GraphingCalculator.Proofs.Worksheet.Passes

/-!
# Runs keep rows fresh

An edit types into a row, compiles it, and then compiles the rows that depend on
it in one pass, and a removal ends with such a pass as well.  Together with the
rows that are tracked this tells which rows are fresh after a run: all those
that were not overtaken, and after a pass all those that it reaches in time.
-/

namespace GraphingCalculator
namespace Worksheet

variable {start : Environment} {present : Text → Text}
variable {sheet : Worksheet}

/-- A worksheet in which a row was typed and compiled, and which is otherwise
the same.  The definition of the row is all that may have changed. -/
structure IsRetyped (sheet retyped : Worksheet) (index : Nat)
    (row typed : Row) : Prop where
  rows : retyped.rows = sheet.rows.set index typed
  name : typed.name = row.name
  limits : retyped.environment.limits = sheet.environment.limits
  definitions : ∀ name, name ≠ row.name →
    retyped.environment.userDefinition? name =
      sheet.environment.userDefinition? name

theorem modifyRow_eq {index : Nat} {row : Row}
    (found : sheet.rows[index]? = some row) (change : Row → Row) :
    sheet.modifyRow index change =
      ⟨sheet.environment, sheet.rows.set index (change row)⟩ := by
  rw [modifyRow, List.modify_eq_set_getElem?, found]
  rfl

/-- A text that is refused leaves an empty body. -/
theorem isRetyped_failRow {index : Nat} {row : Row}
    (found : sheet.rows[index]? = some row) (text : Text)
    (error : CalculationError) :
    IsRetyped sheet
      ((sheet.modifyRow index (Row.withText text)).failRow index error) index
      row { row.withText text with state := .failed error } := by
  obtain ⟨inRange, -⟩ := List.getElem?_eq_some_iff.mp found
  rw [modifyRow_eq found, failRow, List.getElem?_set_self inRange]
  exact
    { rows := List.set_set _
      name := rfl
      limits := Environment.limits_remove _ _
      definitions := fun name differs =>
        Environment.userDefinition?_remove_of_ne differs _ }

/-- An edit is followed by a pass over the rows that depend on its row. -/
theorem perform_edit_eq {index : Nat} {row : Row}
    (found : sheet.rows[index]? = some row) (text : Text) :
    sheet.perform (.edit index text) =
      ((sheet.retype index row.name text).followers index).foldl recompile
        (sheet.retype index row.name text) := by
  rw [perform, edit?_eq found, followers]
  cases (sheet.retype index row.name text).rows[index]? with
  | none =>
      rw [Option.map_none, Option.toList_none, dependents]
      rfl
  | some current => rfl

namespace IsRetyped

variable {retyped : Worksheet} {index : Nat} {row typed : Row}

end IsRetyped

end Worksheet
end GraphingCalculator
