import GraphingCalculator.Expression.Folding

/-!
# Renaming is relabelling

A renaming of an expression changes the names in it, and nothing else.  So it is
a relabelling: every name is mapped to another one, and the shape of the
expression, the numbers in it and the order of its names stay.  This file proves
what a relabelling keeps, and derives from it what an expression refers to after
a renaming, and that a renaming is exact.
-/

namespace GraphingCalculator
namespace Expression

variable {old new : Text} {expression : Expression}

section Names

@[simp]
theorem renameName_self (old new : Text) : renameName old new old = new := by
  simp [renameName]

theorem renameName_of_ne {old new name : Text} (differs : name ≠ old) :
    renameName old new name = name := by
  simp [renameName, differs]

@[simp]
theorem renameName_same (old name : Text) : renameName old old name = name := by
  by_cases same : name = old <;> simp [renameName, same]

theorem renameName_renameName {old new name : Text} (notNew : name ≠ new) :
    renameName new old (renameName old new name) = name := by
  by_cases isOld : name = old
  · rw [isOld, renameName_self, renameName_self]
  · rw [renameName_of_ne isOld, renameName_of_ne notNew]

theorem renameName_inj {old new first second : Text}
    (firstDiffers : first ≠ new) (secondDiffers : second ≠ new)
    (same : renameName old new first = renameName old new second) :
    first = second := by
  unfold renameName at same
  split at same <;> split at same <;> simp_all

theorem renameName_ne_old (differs : old ≠ new) (name : Text) :
    renameName old new name ≠ old := by
  by_cases isOld : name = old
  · rw [isOld, renameName_self]
    exact differs.symm
  · rwa [renameName_of_ne isOld]

theorem renameName_eq_new_iff {name : Text} :
    renameName old new name = new ↔ name = old ∨ name = new := by
  by_cases isOld : name = old
  · simp [isOld]
  · simp [renameName_of_ne isOld, isOld]

theorem renameName_eq_iff_of_ne {source target : Text} (notOld : target ≠ old)
    (notNew : target ≠ new) :
    renameName old new source = target ↔ source = target := by
  by_cases isOld : source = old
  · simp [isOld, notOld.symm, notNew.symm]
  · rw [renameName_of_ne isOld]

end Names

/-- The names that an expression refers to, from left to right, each one as
often as it occurs. -/
def names : Expression → List Text
  | freeVariable | value _ => []
  | constant name => [name]
  | binary _ left right => left.names ++ right.names
  | call name argument => name :: argument.names
  | apply _ argument | derivative argument => argument.names

/-- The expression with another name in place of each one. -/
def mapNames (label : Text → Text) : Expression → Expression
  | freeVariable => freeVariable
  | value number => value number
  | constant name => constant (label name)
  | binary operator left right =>
      binary operator (left.mapNames label) (right.mapNames label)
  | apply function argument => apply function (argument.mapNames label)
  | call name argument => call (label name) (argument.mapNames label)
  | derivative operand => derivative (operand.mapNames label)

theorem rename_eq_mapNames (old new : Text) (expression : Expression) :
    expression.rename old new = expression.mapNames (renameName old new) := by
  induction expression with
  | freeVariable | value | constant => rfl
  | binary operator left right leftIH rightIH =>
      rw [rename, mapNames, leftIH, rightIH]
  | apply function argument ih => rw [rename, mapNames, ih]
  | call name argument ih => rw [rename, mapNames, ih]
  | derivative operand ih => rw [rename, mapNames, ih]

theorem references_eq_true_iff {name : Text} :
    expression.references name = true ↔ name ∈ expression.names := by
  induction expression with
  | freeVariable | value => simp [references, names]
  | constant other => simp [references, names, eq_comm]
  | binary operator left right leftIH rightIH =>
      rw [references, names, Bool.or_eq_true, leftIH, rightIH, List.mem_append]
  | apply function argument ih => exact ih
  | call function argument ih =>
      rw [references, names, Bool.or_eq_true, ih, List.mem_cons,
        decide_eq_true_eq, eq_comm]
  | derivative operand ih => exact ih

theorem references_eq_false_iff {name : Text} :
    expression.references name = false ↔ name ∉ expression.names := by
  rw [← references_eq_true_iff, Bool.not_eq_true]

section Relabelling

variable (label : Text → Text)

theorem names_mapNames (expression : Expression) :
    (expression.mapNames label).names = expression.names.map label := by
  induction expression with
  | freeVariable | value | constant => rfl
  | binary operator left right leftIH rightIH =>
      rw [mapNames, names, names, leftIH, rightIH, List.map_append]
  | apply function argument ih => exact ih
  | call name argument ih => rw [mapNames, names, names, ih, List.map_cons]
  | derivative operand ih => exact ih

theorem mapNames_mapNames (other : Text → Text) (expression : Expression) :
    (expression.mapNames label).mapNames other =
      expression.mapNames (other ∘ label) := by
  induction expression with
  | freeVariable | value | constant => rfl
  | binary operator left right leftIH rightIH =>
      rw [mapNames, mapNames, mapNames, leftIH, rightIH]
  | apply function argument ih => rw [mapNames, mapNames, mapNames, ih]
  | call name argument ih =>
      rw [mapNames, mapNames, mapNames, ih, Function.comp_apply]
  | derivative operand ih => rw [mapNames, mapNames, mapNames, ih]

/-- Only the names that occur have a say in a relabelling. -/
theorem mapNames_eq_self {label : Text → Text}
    (keeps : ∀ name ∈ expression.names, label name = name) :
    expression.mapNames label = expression := by
  induction expression with
  | freeVariable | value => rfl
  | constant name => rw [mapNames, keeps name (List.mem_singleton_self name)]
  | binary operator left right leftIH rightIH =>
      rw [names, List.forall_mem_append] at keeps
      rw [mapNames, leftIH keeps.1, rightIH keeps.2]
  | apply function argument ih => rw [mapNames, ih keeps]
  | call name argument ih =>
      rw [names, List.forall_mem_cons] at keeps
      rw [mapNames, keeps.1, ih keeps.2]
  | derivative operand ih => rw [mapNames, ih keeps]

theorem usesVariable_mapNames (expression : Expression) :
    (expression.mapNames label).usesVariable = expression.usesVariable := by
  induction expression with
  | freeVariable | value | constant | derivative => rfl
  | binary operator left right leftIH rightIH =>
      rw [mapNames, usesVariable, usesVariable, leftIH, rightIH]
  | apply function argument ih => exact ih
  | call name argument ih => exact ih

/-- What is folded are values, which have no names. -/
theorem foldBinary_mapNames (operator : Operator) (left right : Expression) :
    foldBinary operator (left.mapNames label) (right.mapNames label) =
      (foldBinary operator left right).mapNames label := by
  cases left with
  | value first =>
      cases right with
      | value second =>
          simp only [mapNames, foldBinary]
          cases operator.apply first second <;> rfl
      | _ => rfl
  | _ => rfl

theorem foldApply_mapNames (function : BuiltinFunction)
    (argument : Expression) :
    foldApply function (argument.mapNames label) =
      (foldApply function argument).mapNames label := by
  cases argument with
  | value operand =>
      simp only [mapNames, foldApply]
      cases function.apply operand <;> rfl
  | _ => rfl

theorem fold_mapNames (expression : Expression) :
    (expression.mapNames label).fold = expression.fold.mapNames label := by
  induction expression with
  | freeVariable | value | constant => rfl
  | binary operator left right leftIH rightIH =>
      rw [mapNames, fold, fold, leftIH, rightIH, foldBinary_mapNames]
  | apply function argument ih =>
      rw [mapNames, fold, fold, ih, foldApply_mapNames]
  | call name argument ih => rw [mapNames, fold, fold, ih, mapNames]
  | derivative operand ih => rw [mapNames, fold, fold, ih, mapNames]

end Relabelling

section Renaming

theorem names_rename (old new : Text) (expression : Expression) :
    (expression.rename old new).names =
      expression.names.map (renameName old new) := by
  rw [rename_eq_mapNames, names_mapNames]

/-- What an expression refers to after a renaming is the new name of what it
referred to before. -/
theorem references_rename_iff {target : Text} :
    (expression.rename old new).references target = true ↔
      ∃ source, expression.references source = true ∧
        renameName old new source = target := by
  simp only [references_eq_true_iff, names_rename, List.mem_map]

/-- No reference to the old name is left by a renaming. -/
theorem references_rename_old (differs : old ≠ new) (expression : Expression) :
    (expression.rename old new).references old = false := by
  rw [← Bool.not_eq_true]
  intro refers
  obtain ⟨source, -, renamed⟩ := references_rename_iff.mp refers
  exact renameName_ne_old differs source renamed

/-- The new name is referred to where one of the two names was. -/
theorem references_rename_new_iff :
    (expression.rename old new).references new = true ↔
      expression.references old = true ∨ expression.references new = true := by
  simp only [references_rename_iff, renameName_eq_new_iff, and_or_left,
    exists_or, exists_eq_right]

theorem references_rename_of_ne {name : Text} (notOld : name ≠ old)
    (notNew : name ≠ new) :
    (expression.rename old new).references name =
      expression.references name := by
  rw [Bool.eq_iff_iff]
  simp only [references_rename_iff, renameName_eq_iff_of_ne notOld notNew,
    exists_eq_right]

theorem rename_of_not_references
    (notReferenced : expression.references old = false) :
    expression.rename old new = expression := by
  rw [references_eq_false_iff] at notReferenced
  rw [rename_eq_mapNames]
  refine mapNames_eq_self fun name isName => renameName_of_ne ?_
  rintro rfl
  exact notReferenced isName

/-- Renaming to a name that is not referred to can be undone. -/
theorem rename_rename (notReferenced : expression.references new = false) :
    (expression.rename old new).rename new old = expression := by
  rw [references_eq_false_iff] at notReferenced
  rw [rename_eq_mapNames, rename_eq_mapNames, mapNames_mapNames]
  refine mapNames_eq_self fun name isName => renameName_renameName ?_
  rintro rfl
  exact notReferenced isName

@[simp]
theorem rename_same (name : Text) (expression : Expression) :
    expression.rename name name = expression := by
  rw [rename_eq_mapNames]
  exact mapNames_eq_self fun other _ => renameName_same name other

theorem usesVariable_rename (expression : Expression) :
    (expression.rename old new).usesVariable = expression.usesVariable := by
  rw [rename_eq_mapNames, usesVariable_mapNames]

theorem fold_rename (expression : Expression) :
    (expression.rename old new).fold = expression.fold.rename old new := by
  rw [rename_eq_mapNames, rename_eq_mapNames, fold_mapNames]

end Renaming

/-- A renaming turns the old name to the new one, wherever it occurs, and leaves
the rest of an expression as it is.  It can be made before or after folding, and
it can be undone if the new name did not occur. -/
theorem rename_isRelabelling (differs : old ≠ new) (expression : Expression) :
    let renamed := expression.rename old new
    renamed.names = expression.names.map (renameName old new) ∧
      renamed.references old = false ∧
      (renamed.references new = true ↔
        expression.references old = true ∨
          expression.references new = true) ∧
      (∀ name, name ≠ old → name ≠ new →
        renamed.references name = expression.references name) ∧
      renamed.usesVariable = expression.usesVariable ∧
      renamed.fold = expression.fold.rename old new ∧
      (expression.references new = false →
        renamed.rename new old = expression) :=
  ⟨names_rename old new expression, references_rename_old differs expression,
    references_rename_new_iff, fun _ => references_rename_of_ne,
    usesVariable_rename expression, fold_rename expression, rename_rename⟩

/-- The name stands in a call and in its argument, beside a part that is
folded. -/
theorem rename_isRelabelling_call :
    let old : Text := ['r']
    let new : Text := ['s']
    let expression := binary .plus
      (call old (binary .times (constant old) freeVariable))
      (derivative (binary .divide (value 1) (binary .minus (value 2) (value 2))))
    let renamed := expression.rename old new
    old ≠ new ∧ expression.references new = false ∧
      renamed.names = [new, new] ∧ renamed.references old = false ∧
      renamed.references new = true ∧
      renamed.fold = expression.fold.rename old new ∧
      renamed.rename new old = expression := by
  intro old new expression renamed
  have differs : old ≠ new := by decide
  have unreferenced : expression.references new = false := by decide
  obtain ⟨isNames, noOld, refersNew, -, -, folds, returns⟩ :=
    rename_isRelabelling differs expression
  exact ⟨differs, unreferenced, isNames, noOld,
    refersNew.mpr (.inl (by decide)), folds, returns unreferenced⟩

end Expression
end GraphingCalculator
