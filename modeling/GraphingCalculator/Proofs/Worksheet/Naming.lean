import GraphingCalculator.Proofs.Worksheet.Agreement

/-!
# Whose definition carries a name

A row takes its name when it is inserted, when a text is typed into it, when it
is renamed, and when it moves down.  Whether it compiles or not, no other row
carries this name, and no definition does but its own.  So the definitions of
the user fall apart into those that were there at the start and those that
belong to one row each.
-/

namespace GraphingCalculator

namespace Row

variable {environment : Environment} {row : Row}

/-- A definition is that of a row if it is what the body of the row was compiled
to. -/
def Owns (row : Row) (definition : UserDefinition) : Prop :=
  ∃ formula, row.state = .compiled formula ∧ formula.source = row.body ∧
    if formula.usesVariable then definition = .function formula
    else ∃ value, definition = .constant value row.body

theorem Agrees.owns (agrees : row.Agrees environment)
    {definition : Definition}
    (found : environment.definition? row.name = some definition) :
    ∃ own, definition = .user own ∧ row.Owns own := by
  unfold Agrees at agrees
  rw [found] at agrees
  cases isState : row.state with
  | blank | failed error =>
      rw [isState] at agrees
      contradiction
  | compiled formula =>
      rw [isState] at agrees
      obtain ⟨sameSource, agrees⟩ := agrees
      split at agrees
      next reads =>
          refine ⟨_, Option.some.inj agrees, formula, isState, sameSource, ?_⟩
          rw [if_pos reads]
      next notReads =>
          obtain ⟨value, isConstant⟩ := agrees
          refine ⟨_, Option.some.inj isConstant, formula, isState, sameSource,
            ?_⟩
          rw [if_neg notReads]
          exact ⟨value, rfl⟩

end Row

namespace Worksheet

/-- The names of the rows after every run: they are distinct, each one can be
defined, and a definition under one of them is that of the row.  Every
definition of the user is either that of exactly one row, or one from the start,
whose present name no row carries. -/
theorem names_performAll (start : Environment) (operations : List Operation) :
    let sheet := (ofEnvironment start).performAll operations
    let presentName := (ofEnvironment start).nameAfterAll operations
    sheet.names.Nodup ∧
      (∀ row ∈ sheet.rows,
        isIdentifier row.name = true ∧ row.name ≠ variableName ∧
          (∀ constant : BuiltinConstant, constant.name ≠ row.name) ∧
            ∀ function : BuiltinFunction, function.name ≠ row.name) ∧
      (∀ row ∈ sheet.rows, ∀ definition,
        sheet.environment.definition? row.name = some definition →
          ∃ own, definition = .user own ∧ row.Owns own) ∧
      ∀ name definition,
        sheet.environment.userDefinition? name = some definition →
          (∃! index : Nat, ∃ row : Row, sheet.rows[index]? = some row ∧
            row.name = name ∧ row.Owns definition) ∨
          name ∉ sheet.names ∧
            ∃ given, start.userDefinition? given ≠ none ∧
              presentName given = name := by
  intro sheet presentName
  have consistent :
      IsConsistent start presentName (fun _ => False) sheet :=
    (isConsistent_ofEnvironment start).performAll operations
  have owns (row : Row) (member : row ∈ sheet.rows) (definition : Definition)
      (found : sheet.environment.definition? row.name = some definition) :
      ∃ own, definition = .user own ∧ row.Owns own := by
    obtain ⟨index, isRow⟩ := List.getElem?_of_mem member
    exact (consistent.settled index row isRow id).agrees.owns found
  refine ⟨consistent.distinct, fun row member => ?_, owns,
    fun name definition found => ?_⟩
  · have definable := consistent.definable _ (List.mem_map_of_mem member)
    exact ⟨definable.identifier, definable.not_variable,
      definable.ne_constantName, definable.ne_functionName⟩
  by_cases isRow : name ∈ sheet.names
  · left
    obtain ⟨row, member, rfl⟩ := List.mem_map.mp isRow
    obtain ⟨index, atIndex⟩ := List.getElem?_of_mem member
    have notBuiltin := (consistent.definable _ isRow).not_builtin
    obtain ⟨own, isOwn, rowOwns⟩ := owns row member (.user definition) (by
      rw [Environment.definition?_of_not_builtin notBuiltin, found,
        Option.map_some])
    cases isOwn
    refine ⟨index, ⟨row, atIndex, rfl, rowOwns⟩, ?_⟩
    rintro second ⟨other, atSecond, sameName, -⟩
    by_contra apart
    exact consistent.name_ne atSecond atIndex apart sameName
  · right
    refine ⟨isRow, ?_⟩
    have isDefined : sheet.environment.userDefinition? name ≠ none := by
      simp [found]
    exact (consistent.accounted name isDefined).resolve_right isRow

end Worksheet
end GraphingCalculator
