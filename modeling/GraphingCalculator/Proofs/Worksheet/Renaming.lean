import GraphingCalculator.Proofs.Compilation.Renaming
import GraphingCalculator.Proofs.Environment.Renaming
import GraphingCalculator.Proofs.Worksheet.Passes

/-!
# Renaming in a worksheet keeps the values of its rows

A renaming turns a name in the definitions and in the bodies that mention it,
and compiles these rows once more, one after the other.  The sheet with the old
name and the sheet with the new one are compared while this goes on: compiling a
row in both of them keeps every definition of the one in the other.  A fresh row
is not changed by its compilation, and so it is enough that the rows which
mention the old name are fresh.
-/

namespace GraphingCalculator

namespace Environment

variable {first second : Environment} {old new : Text}

theorem not_isBlank_of_compile {environment : Environment} {source : Text}
    {formula : Formula}
    (compiles : environment.compile source = .ok formula) :
    (Text.trim source).isEmpty = false := by
  obtain ⟨tokens, ordered, expression, reads, -⟩ :=
    compile_eq_ok_iff.mp compiles
  have checks := (Source.tokenize_eq_ok_iff.mp reads).2.1
  rw [← Bool.not_eq_true]
  intro isBlank
  rw [Source.check, if_pos isBlank] at checks
  contradiction

/-- A renamed formula defines what the formula defined. -/
theorem Keeps.exists_definitionOf (keeps : first.Keeps old new second)
    {formula : Formula} {definition : UserDefinition}
    (defines : first.definitionOf formula = .ok definition) :
    ∃ renamed,
      second.definitionOf (formula.rename old new) = .ok renamed ∧
        renamed.meaning = definition.meaning.rename old new := by
  have sameVariable : (formula.rename old new).usesVariable =
      formula.usesVariable :=
    Expression.usesVariable_rename formula.expression
  rcases definitionOf_eq_ok_iff.mp defines with
    ⟨usesVariable, rfl⟩ | ⟨usesNone, value, evaluates, rfl⟩
  · exact ⟨.function (formula.rename old new),
      definitionOf_eq_ok_iff.mpr (.inl ⟨sameVariable.trans usesVariable, rfl⟩),
      rfl⟩
  · exact ⟨.constant value (formula.rename old new).source,
      definitionOf_eq_ok_iff.mpr (.inr ⟨sameVariable.trans usesNone, value,
        keeps.evaluate_eq_ok evaluates, rfl⟩),
      rfl⟩

end Environment

namespace Row

open Environment

variable {first second : Environment} {old new : Text} {row other : Row}

/-- A row with a name replaced by another one, in its own name and in its body,
so that the body is read again as it was. -/
structure IsRenamed (old new : Text) (row other : Row) : Prop where
  definableOld : IsDefinable old
  definableNew : IsDefinable new
  definable : IsDefinable row.name
  definableOther : IsDefinable other.name
  notNew : row.name ≠ new
  name : other.name = Expression.renameName old new row.name
  body : other.body = renameIdentifier old new row.body
  splits : segments other.body =
    (segments row.body).map (Segment.rename old new)

/-- The renaming can be undone if the body did not mention the new name. -/
theorem IsRenamed.symm (renamed : row.IsRenamed old new other)
    (differs : old ≠ new) (notMentioned : mentions row.body new = false) :
    other.IsRenamed new old row where
  definableOld := renamed.definableNew
  definableNew := renamed.definableOld
  definable := renamed.definableOther
  definableOther := renamed.definable
  notNew := by
    rw [renamed.name]
    unfold Expression.renameName
    split
    next => exact differs.symm
    next notOld => exact notOld
  name := by
    rw [renamed.name, Expression.renameName_renameName renamed.notNew]
  body := by
    rw [renameIdentifier_eq_flatMap_text, renamed.splits,
      map_rename_rename notMentioned, flatMap_text_segments]
  splits := by
    rw [renamed.splits, map_rename_rename notMentioned]

/-- A row that compiles still compiles after a renaming, and to the renamed
formula. -/
theorem IsRenamed.compile_eq (renamed : row.IsRenamed old new other)
    (keeps : first.Keeps old new second) {formula : Formula}
    {definition : UserDefinition}
    (compiles : (first.remove row.name).2.compile row.body = .ok formula)
    (defines : (first.remove row.name).2.definitionOf formula =
      .ok definition) :
    ∃ carried, carried.meaning = definition.meaning.rename old new ∧
      other.compile second =
        (.compiled (formula.rename old new),
          (second.remove other.name).2.insert other.name carried) := by
  have cleared := keeps.remove renamed.notNew
  rw [← renamed.name] at cleared
  have splits := renamed.splits
  rw [renamed.body] at splits
  have compilesOther : (second.remove other.name).2.compile other.body =
      .ok (formula.rename old new) := by
    rw [renamed.body]
    exact compile_renameIdentifier renamed.definableOld renamed.definableNew
      cleared.limits (fun name _ kind => cleared.classify_eq_some) splits
      compiles
  obtain ⟨carried, definesOther, isMeaning⟩ :=
    cleared.exists_definitionOf defines
  refine ⟨carried, isMeaning, ?_⟩
  rw [compile_of_not_isBlank (not_isBlank_of_compile compilesOther)
    renamed.definableOther, compilesOther]
  dsimp only
  rw [definesOther]

theorem meaning?_compile_of_ne {environment : Environment} {name : Text}
    (differs : name ≠ row.name) :
    (row.compile environment).2.meaning? name = environment.meaning? name :=
  meaning?_congr (userDefinition?_compile_of_ne differs)

/-- Compiling a row on both sides of a renaming keeps the definitions of the one
side on the other. -/
theorem IsRenamed.keeps_compile (renamed : row.IsRenamed old new other)
    (keeps : first.Keeps old new second) :
    (row.compile first).2.Keeps old new (other.compile second).2 := by
  refine ⟨?_, keeps.notBuiltinOld, keeps.notBuiltinNew, ?_, ?_⟩
  · rw [limits_compile, limits_compile, keeps.limits]
  · rw [meaning?_compile_of_ne renamed.notNew.symm, keeps.free]
  · intro name meaning isMeaning
    by_cases isOwn : name = row.name
    · subst isOwn
      rw [← renamed.name]
      rcases compile_cases first row with
        ⟨-, ends⟩ | ⟨error, ends⟩ |
          ⟨formula, definition, compiles, defines, ends⟩
      · rw [ends, meaning?_remove, if_pos rfl] at isMeaning
        contradiction
      · rw [ends, meaning?_remove, if_pos rfl] at isMeaning
        contradiction
      · obtain ⟨carried, isCarried, endsOther⟩ :=
          renamed.compile_eq keeps compiles defines
        rw [ends, meaning?, userDefinition?_insert, if_pos rfl] at isMeaning
        cases isMeaning
        rw [endsOther, meaning?, userDefinition?_insert, if_pos rfl,
          ← isCarried]
        rfl
    · rw [meaning?_compile_of_ne isOwn] at isMeaning
      have notNew := keeps.ne_new isMeaning
      rw [meaning?_compile_of_ne, keeps.moves name meaning isMeaning]
      rw [renamed.name]
      intro same
      exact isOwn (Expression.renameName_inj notNew renamed.notNew same)

theorem IsRenamed.state_compile (renamed : row.IsRenamed old new other)
    (keeps : first.Keeps old new second) {formula : Formula}
    (isCompiled : (row.compile first).1 = .compiled formula) :
    (other.compile second).1 = .compiled (formula.rename old new) := by
  obtain ⟨definition, compiles, defines, -⟩ :=
    compile_eq_of_compiled isCompiled
  obtain ⟨carried, -, endsOther⟩ := renamed.compile_eq keeps compiles defines
  rw [endsOther]

theorem IsRenamed.congr (renamed : row.IsRenamed old new other)
    {sameRow sameOther : Row} (rowName : sameRow.name = row.name)
    (rowBody : sameRow.body = row.body)
    (otherName : sameOther.name = other.name)
    (otherBody : sameOther.body = other.body) :
    sameRow.IsRenamed old new sameOther where
  definableOld := renamed.definableOld
  definableNew := renamed.definableNew
  definable := rowName ▸ renamed.definable
  definableOther := otherName ▸ renamed.definableOther
  notNew := rowName ▸ renamed.notNew
  name := by rw [otherName, rowName, renamed.name]
  body := by rw [otherBody, rowBody, renamed.body]
  splits := by rw [otherBody, rowBody, renamed.splits]

end Row

namespace Worksheet

variable {old new : Text} {pending later : Nat → Prop}
variable {first second sheet : Worksheet}

/-- The formula of the row at an index, if there is one that compiled. -/
def formulaAt? (sheet : Worksheet) (index : Nat) : Option Formula :=
  sheet.rows[index]?.bind Row.formula?

/-- A row has a value where its formula has one. -/
theorem evaluate?_eq_ok_iff {index : Nat} {x value : Float} :
    sheet.evaluate? index x = some (.ok value) ↔
      ∃ formula, sheet.formulaAt? index = some formula ∧
        sheet.environment.evaluate formula.expression x = .ok value := by
  rw [evaluate?, formulaAt?]
  cases sheet.rows[index]? with
  | none => simp
  | some row =>
      rw [Option.map_some, Option.bind_some, Option.some.injEq, Row.evaluate,
        Row.formula?]
      cases row.state with
      | blank | failed error => simp
      | compiled formula =>
          cases isValue : sheet.environment.evaluate formula.expression x with
          | ok result => simp [isValue, Except.mapError]
          | error error => simp [isValue, Except.mapError]

/-- Two sheets say the same, apart from the rows that are pending and from the
sources of the formulas. -/
structure Resembles (pending : Nat → Prop) (first second : Worksheet) :
    Prop where
  limits : first.environment.limits = second.environment.limits
  meanings : ∀ name,
    first.environment.meaning? name = second.environment.meaning? name
  formulas : ∀ index, ¬ pending index →
    (first.formulaAt? index).map Formula.expression =
      (second.formulaAt? index).map Formula.expression

theorem Resembles.refl (pending : Nat → Prop) (sheet : Worksheet) :
    Resembles pending sheet sheet :=
  ⟨rfl, fun _ => rfl, fun _ _ => rfl⟩

theorem Resembles.symm (resembles : Resembles pending first second) :
    Resembles pending second first where
  limits := resembles.limits.symm
  meanings name := (resembles.meanings name).symm
  formulas index notPending := (resembles.formulas index notPending).symm

theorem Resembles.trans (resembles : Resembles pending first second)
    (further : Resembles pending second sheet) :
    Resembles pending first sheet where
  limits := resembles.limits.trans further.limits
  meanings name := (resembles.meanings name).trans (further.meanings name)
  formulas index notPending :=
    (resembles.formulas index notPending).trans
      (further.formulas index notPending)

theorem Resembles.exists_formula (resembles : Resembles pending first second)
    {index : Nat} (notPending : ¬ pending index) {formula : Formula}
    (isFormula : second.formulaAt? index = some formula) :
    ∃ other, first.formulaAt? index = some other ∧
      other.expression = formula.expression := by
  have same := resembles.formulas index notPending
  rw [isFormula, Option.map_some, Option.map_eq_some_iff] at same
  exact same

/-- Compiling a fresh row changes nothing. -/
theorem IsFreshAt.resembles {index : Nat} (fresh : sheet.IsFreshAt index)
    (pending : Nat → Prop) :
    Resembles pending (sheet.recompile index) sheet where
  limits := fresh.limits
  meanings name := Environment.meaning?_congr (fresh.definitions name)
  formulas place _ := by rw [formulaAt?, formulaAt?, fresh.rows]

/-- Each definition of a sheet, and each formula of a row that is not pending,
stands in another sheet, with the old name turned to the new one. -/
structure Carries (old new : Text) (pending : Nat → Prop)
    (first second : Worksheet) : Prop where
  definitions : first.environment.Keeps old new second.environment
  formulas : ∀ index formula, first.formulaAt? index = some formula →
    ¬ pending index →
      ∃ renamed, second.formulaAt? index = some renamed ∧
        renamed.expression = formula.expression.rename old new

/-- The rows at an index differ in a name that has been replaced. -/
def IsRenamedAt (old new : Text) (first second : Worksheet) (index : Nat) :
    Prop :=
  ∃ row other, first.rows[index]? = some row ∧
    second.rows[index]? = some other ∧ row.IsRenamed old new other

theorem IsRenamedAt.of_outline {index : Nat} {sameFirst sameSecond : Worksheet}
    (renamed : IsRenamedAt old new first second index)
    (isFirst : first.rows.map Row.outline = sameFirst.rows.map Row.outline)
    (isSecond : second.rows.map Row.outline = sameSecond.rows.map Row.outline) :
    IsRenamedAt old new sameFirst sameSecond index := by
  obtain ⟨row, other, found, foundOther, renamed⟩ := renamed
  obtain ⟨sameRow, foundRow, rowName, rowBody⟩ :=
    exists_row_of_outline isFirst found
  obtain ⟨sameOther, foundSame, otherName, otherBody⟩ :=
    exists_row_of_outline isSecond foundOther
  exact ⟨sameRow, sameOther, foundRow, foundSame,
    renamed.congr rowName rowBody otherName otherBody⟩

theorem formulaAt?_recompile_of_ne {index other : Nat}
    (differs : other ≠ index) :
    (sheet.recompile index).formulaAt? other = sheet.formulaAt? other := by
  cases found : sheet.rows[index]? with
  | none => rw [recompile, found]
  | some row =>
      rw [recompile_eq found, formulaAt?, List.getElem?_set_ne differs.symm]
      rfl

theorem formulaAt?_recompile {index : Nat} {row : Row}
    (found : sheet.rows[index]? = some row) (formula : Formula) :
    (sheet.recompile index).formulaAt? index = some formula ↔
      (row.compile sheet.environment).1 = .compiled formula := by
  obtain ⟨inRange, -⟩ := List.getElem?_eq_some_iff.mp found
  rw [recompile_eq found, formulaAt?, List.getElem?_set_self inRange,
    Option.bind_some, Row.formula?_eq_some_iff]

namespace Carries

theorem mono (carries : Carries old new pending first second)
    (stillPending : ∀ index, pending index → later index) :
    Carries old new later first second where
  definitions := carries.definitions
  formulas index formula isFormula notLater :=
    carries.formulas index formula isFormula fun isPending =>
      notLater (stillPending index isPending)

/-- Rows are compiled alike on both sides of a renaming. -/
theorem recompile (carries : Carries old new pending first second) {index : Nat}
    (renamed : IsRenamedAt old new first second index) :
    Carries old new (fun other => pending other ∧ other ≠ index)
      (first.recompile index) (second.recompile index) := by
  obtain ⟨row, other, found, foundOther, renamed⟩ := renamed
  constructor
  · rw [recompile_eq found, recompile_eq foundOther]
    exact renamed.keeps_compile carries.definitions
  · intro place formula isFormula notPending
    by_cases same : place = index
    · subst same
      rw [formulaAt?_recompile found] at isFormula
      exact ⟨formula.rename old new,
        (formulaAt?_recompile foundOther _).mpr
          (renamed.state_compile carries.definitions isFormula),
        rfl⟩
    · rw [formulaAt?_recompile_of_ne same] at isFormula
      rw [formulaAt?_recompile_of_ne same]
      exact carries.formulas place formula isFormula
        fun isPending => notPending ⟨isPending, same⟩

theorem congr_left {same : Worksheet}
    (carries : Carries old new pending first second)
    (resembles : Resembles pending first same) :
    Carries old new pending same second where
  definitions := carries.definitions.congr_left resembles.limits
    resembles.meanings
  formulas index formula isFormula notPending := by
    obtain ⟨other, isOther, isExpression⟩ :=
      resembles.exists_formula notPending isFormula
    rw [← isExpression]
    exact carries.formulas index other isOther notPending

theorem congr_right {same : Worksheet}
    (carries : Carries old new pending first second)
    (resembles : Resembles pending second same) :
    Carries old new pending first same where
  definitions := carries.definitions.congr_right resembles.limits
    resembles.meanings
  formulas index formula isFormula notPending := by
    obtain ⟨renamed, isRenamed, isExpression⟩ :=
      carries.formulas index formula isFormula notPending
    obtain ⟨other, isOther, sameExpression⟩ :=
      resembles.symm.exists_formula notPending isRenamed
    exact ⟨other, isOther, sameExpression.trans isExpression⟩

/-- Compiling renamed rows keeps all that is carried over from rows that are
fresh. -/
theorem recompileAll (carries : Carries old new pending first second)
    {indices : List Nat}
    (renamed : ∀ index ∈ indices, IsRenamedAt old new first second index)
    (fresh : ∀ index ∈ indices, first.IsFreshAt index) :
    Carries old new (fun index => pending index ∧ index ∉ indices) first
      (indices.foldl Worksheet.recompile second) := by
  refine (foldl_settles (fun waiting current =>
    Carries old new waiting first current ∧
      second.rows.map Row.outline = current.rows.map Row.outline)
    (fun holds stillPending => ⟨holds.1.mono stillPending, holds.2⟩)
    ?_ ⟨carries, rfl⟩).1
  rintro waiting current index member ⟨carries, sameOutline⟩
  have renamedAt := (renamed index member).of_outline rfl sameOutline
  exact ⟨(carries.recompile renamedAt).congr_left
      ((fresh index member).resembles _),
    sameOutline.trans (outline_recompile current index).symm⟩

end Carries
end Worksheet
end GraphingCalculator
