import GraphingCalculator.Worksheet.Basic

/-!
# Rows that depend on a name

A row depends on a name if its body mentions it, or if it mentions a row that
depends on it.  The dependents are found by a search that visits every row at
most once, so that rows may mention each other in circles.  Compiling a row
changes no name and no body, and so the rows can be found before the first of
them is compiled.
-/

namespace GraphingCalculator
namespace Worksheet

/-- Rows with their indices. -/
abbrev IndexedRows := List (Nat × Row)

namespace IndexedRows

/-- The rows whose bodies mention a name. -/
def mentioning (rows : IndexedRows) (name : Text) : IndexedRows :=
  rows.filter fun (_, row) => mentions row.body name

/-- The rows whose bodies do not mention a name. -/
def notMentioning (rows : IndexedRows) (name : Text) : IndexedRows :=
  rows.filter fun (_, row) => !mentions row.body name

theorem length_mentioning_add_length_notMentioning (rows : IndexedRows)
    (name : Text) :
    (rows.mentioning name).length + (rows.notMentioning name).length =
      rows.length := by
  induction rows with
  | nil => rfl
  | cons entry rest ih =>
      simp only [mentioning, notMentioning] at ih ⊢
      cases mentioned : mentions entry.2.body name <;>
        simp [mentioned, ← ih] <;> omega

end IndexedRows

/-- The indices of the rows that depend on one of the pending names, in the
order of the search.  The name that was found last is searched for first. -/
def dependents : (unvisited : IndexedRows) → (pending : List Text) → List Nat
  | _, [] => []
  | unvisited, name :: pending =>
      let found := unvisited.mentioning name
      found.map Prod.fst ++
        dependents (unvisited.notMentioning name)
          (found.reverse.map (fun (_, row) => row.name) ++ pending)
termination_by unvisited pending => unvisited.length + pending.length
decreasing_by
  have parts := unvisited.length_mentioning_add_length_notMentioning name
  simp only [List.length_append, List.length_map, List.length_reverse,
    List.length_cons]
  omega

/-- The rows with their indices, without the row at one index. -/
def rowsExcept (sheet : Worksheet) (skipped : Option Nat) :
    IndexedRows :=
  (sheet.rows.zipIdx.map Prod.swap).filter fun (index, _) =>
    skipped ≠ some index

/-- Compile every row that depends on a name once more. -/
def refreshDependents (sheet : Worksheet) (name : Text)
    (skipped : Option Nat) : Worksheet :=
  (dependents (sheet.rowsExcept skipped) [name]).foldl recompile sheet

end Worksheet
end GraphingCalculator
