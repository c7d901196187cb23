import GraphingCalculator.Proofs.Source.Checking
import GraphingCalculator.Proofs.Worksheet.Correspondence

/-!
# Rows that retain their values

A row retains its values if it compiles as before and is evaluated as before,
apart from the names in errors.  So does every row that is kept while another
row is renamed that it can follow, or while rows are compiled that are steady.
-/

namespace GraphingCalculator

namespace DomainError

/-- The error without the names in it. -/
def eraseNames : DomainError → DomainError
  | undefined _ => undefined []
  | invalidResult _ operand => invalidResult [] operand
  | error => error

@[simp]
theorem eraseNames_rename (old new : Text) (error : DomainError) :
    (error.rename old new).eraseNames = error.eraseNames := by
  cases error <;> rfl

end DomainError

/-- The error without the names in it. -/
def CalculationError.eraseNames : CalculationError → CalculationError
  | inEvaluation error => inEvaluation error.eraseNames
  | error => error

theorem not_isBlank_of_mentions {source name : Text}
    (mentioned : mentions source name = true) :
    (Text.trim source).isEmpty = false := by
  obtain ⟨segment, member, isName, rfl⟩ := mentions_eq_true_iff.mp mentioned
  cases Segment.isWellRead_of_mem_segments member with
  | @identifier text isIdentifier notVariable =>
      obtain ⟨first, rest, rfl⟩ :=
        List.exists_cons_of_ne_nil (ne_nil_of_isIdentifier isIdentifier)
      have lower : first.isLower = true := by
        rw [GraphingCalculator.isIdentifier, Bool.and_eq_true] at isIdentifier
        exact isIdentifier.1
      refine Source.isEmpty_trim (isBlank_of_isLower lower) ?_
      rw [← flatMap_text_segments source]
      exact List.mem_flatMap.mpr ⟨_, member, List.mem_cons_self⟩
  | _ => contradiction

/-- A renamed expression has the renamed values, if the definitions can be
carried over and back. -/
theorem Environment.Keeps.evaluate_eq_mapError {first second : Environment}
    {old new : Text} (definable : IsDefinable old) (differs : old ≠ new)
    (keeps : first.Keeps old new second) (back : second.Keeps new old first)
    {expression : Expression}
    (notReferenced : expression.references new = false) (x : Float) :
    second.evaluate (expression.rename old new) x =
      (first.evaluate expression x).mapError (DomainError.rename old new) := by
  have mirrors := keeps.mirrors (fun name => keeps.meaning?_eq back)
    fun name expression => keeps.not_references differs back
  rw [evaluate, mirrors.limits]
  exact Expression.evaluateWith_rename_eq definable mirrors
    (fun name => mirrors.call_eq definable _) notReferenced _ x

/-- A row compiles as another one, and if it is not in error, then neither was
the other one, and it has the same values apart from the names in errors. -/
structure Row.Retains (first : Environment) (row : Row)
    (second : Environment) (other : Row) : Prop where
  formula : other.formula? = none ↔ row.formula? = none
  values : other.error? = none → row.error? = none ∧ ∀ x,
    (other.evaluate second x).mapError CalculationError.eraseNames =
      (row.evaluate first x).mapError CalculationError.eraseNames

namespace Row.Retains

variable {first second third : Environment} {row other last : Row}

theorem trans (retains : row.Retains first second other)
    (further : other.Retains second third last) :
    row.Retains first third last where
  formula := further.formula.trans retains.formula
  values notFailed := by
    obtain ⟨notBefore, sameValues⟩ := further.values notFailed
    obtain ⟨notFirst, sameFirst⟩ := retains.values notBefore
    exact ⟨notFirst, fun x => (sameValues x).trans (sameFirst x)⟩

/-- It is enough to compare blank rows with blank rows, and formulas with
formulas. -/
theorem of_formulas (blank : other.state = .blank → row.state = .blank)
    (formula : other.formula? = none ↔ row.formula? = none)
    (values : ∀ before after, row.formula? = some before →
      other.formula? = some after → ∀ x,
        (second.evaluate after.expression x).mapError DomainError.eraseNames =
          (first.evaluate before.expression x).mapError
            DomainError.eraseNames) :
    row.Retains first second other := by
  refine ⟨formula, fun notFailed => ?_⟩
  cases isState : other.state with
  | blank =>
      have wasBlank := blank isState
      refine ⟨by rw [error?, wasBlank], fun x => ?_⟩
      rw [evaluate, evaluate, isState, wasBlank]
      rfl
  | failed error =>
      rw [error?, isState] at notFailed
      contradiction
  | compiled after =>
      have isAfter := formula?_eq_some_iff.mpr isState
      obtain ⟨before, isBefore⟩ : ∃ before, row.formula? = some before := by
        rw [← Option.ne_none_iff_exists', ne_eq, ← formula, isAfter]
        exact Option.some_ne_none after
      have wasState := formula?_eq_some_iff.mp isBefore
      refine ⟨by rw [error?, wasState], fun x => ?_⟩
      rw [evaluate, evaluate, isState, wasState]
      dsimp only
      have erases : CalculationError.eraseNames ∘ .inEvaluation =
          .inEvaluation ∘ DomainError.eraseNames := rfl
      rw [mapError_mapError, mapError_mapError, erases, ← mapError_mapError,
        ← mapError_mapError, values before after isBefore isAfter x]

end Row.Retains

namespace Worksheet

variable {start : Environment} {present later : Text → Text}
variable {kept : Nat → Prop} {old new : Text}
variable {first second third sheet renamed : Worksheet}

/-- Each row that is kept retains its values in another sheet. -/
def Retains (kept : Nat → Prop) (first second : Worksheet) : Prop :=
  ∀ index row, kept index → first.rows[index]? = some row →
    ∃ other, second.rows[index]? = some other ∧
      row.Retains first.environment second.environment other

theorem Retains.refl (kept : Nat → Prop) (sheet : Worksheet) :
    sheet.Retains kept sheet :=
  fun _ row _ found => ⟨row, found, .rfl, fun notFailed =>
    ⟨notFailed, fun _ => rfl⟩⟩

theorem Retains.trans (retains : first.Retains kept second)
    (further : second.Retains kept third) : first.Retains kept third := by
  intro index row isKept found
  obtain ⟨other, foundOther, retainsRow⟩ := retains index row isKept found
  obtain ⟨last, foundLast, furtherRow⟩ :=
    further index other isKept foundOther
  exact ⟨last, foundLast, retainsRow.trans furtherRow⟩

theorem formulaAt?_eq {index : Nat} {row : Row}
    (found : sheet.rows[index]? = some row) :
    sheet.formulaAt? index = row.formula? := by
  rw [formulaAt?, found, Option.bind_some]

/-- A row is blank after its compilation only if its body is. -/
theorem isBlank_of_recompileAll {indices : List Nat} {index : Nat} {row : Row}
    (member : index ∈ indices)
    (found : (indices.foldl recompile sheet).rows[index]? = some row)
    (blank : row.state = .blank) : (Text.trim row.body).isEmpty = true := by
  induction indices generalizing sheet with
  | nil => contradiction
  | cons first rest ih =>
      by_cases again : index ∈ rest
      · exact ih again found
      · obtain rfl := (List.mem_cons.mp member).resolve_right again
        rw [List.foldl_cons, getElem?_recompileAll again] at found
        cases foundBefore : sheet.rows[index]? with
        | none =>
            rw [recompile, foundBefore, foundBefore] at found
            contradiction
        | some before =>
            obtain ⟨inRange, -⟩ := List.getElem?_eq_some_iff.mp foundBefore
            rw [recompile_eq foundBefore, List.getElem?_set_self inRange,
              Option.some.injEq] at found
            subst found
            rcases Row.compile_cases sheet.environment before with
              ⟨isBlank, -⟩ | ⟨error, ends⟩ | ⟨formula, definition, -, -, ends⟩
            · exact isBlank
            · rw [ends] at blank
              contradiction
            · rw [ends] at blank
              contradiction

/-- Compiling rows that mention something leaves none of them blank. -/
theorem exists_row_recompileAll {indices : List Nat}
    (mentioned : ∀ index ∈ indices, ∃ name, sheet.MentionsAt name index)
    {index : Nat} {row : Row} (found : sheet.rows[index]? = some row) :
    ∃ other, (indices.foldl recompile sheet).rows[index]? = some other ∧
      (other.state = .blank → row.state = .blank) := by
  have sameOutline := outline_recompileAll sheet indices
  obtain ⟨other, foundOther, -, sameBody⟩ :=
    exists_row_of_outline sameOutline.symm found
  refine ⟨other, foundOther, fun blank => ?_⟩
  by_cases member : index ∈ indices
  · obtain ⟨name, before, foundBefore, isMentioned⟩ := mentioned index member
    obtain rfl : row = before :=
      Option.some.inj (found.symm.trans foundBefore)
    have isBlank := isBlank_of_recompileAll member foundOther blank
    rw [sameBody, not_isBlank_of_mentions isMentioned] at isBlank
    contradiction
  · rw [getElem?_recompileAll member, found, Option.some.injEq] at foundOther
    rw [foundOther]
    exact blank

section Shown

variable (consistent : IsConsistent start present (fun _ => False) first)
variable (consistentLater :
  IsConsistent start later (fun _ => False) second)
variable (separated : first.IsSeparated kept)
variable (separatedLater : second.IsSeparated kept)
variable (rows : ∀ index row, kept index → first.rows[index]? = some row →
  ∃ other, second.rows[index]? = some other ∧
    (other.state = .blank → row.state = .blank))
include consistent consistentLater separated separatedLater rows

/-- It is enough to compare the formulas of the rows in what is shown. -/
theorem retains_of_formulas
    (formulas : ∀ index, kept index →
      (second.formulaAt? index = none ↔ first.formulaAt? index = none))
    (values : ∀ index before after, kept index →
      first.formulaAt? index = some before →
        second.formulaAt? index = some after → ∀ x,
          ((second.shown kept).environment.evaluate after.expression
              x).mapError DomainError.eraseNames =
            ((first.shown kept).environment.evaluate before.expression
              x).mapError DomainError.eraseNames) :
    first.Retains kept second := by
  intro index row isKept found
  obtain ⟨other, foundOther, blank⟩ := rows index row isKept found
  refine ⟨other, foundOther, .of_formulas blank ?_ ?_⟩
  · rw [← formulaAt?_eq found, ← formulaAt?_eq foundOther]
    exact formulas index isKept
  · intro before after isBefore isAfter x
    rw [← separated.evaluate_shown isKept found
        (consistent.settled index row found id) isBefore,
      ← separatedLater.evaluate_shown isKept foundOther
        (consistentLater.settled index other foundOther id) isAfter]
    exact values index before after isKept
      ((formulaAt?_eq found).trans isBefore)
      ((formulaAt?_eq foundOther).trans isAfter) x

theorem Resembles.retains
    (resembles : Resembles (fun index => ¬ kept index) (first.shown kept)
      (second.shown kept)) :
    first.Retains kept second := by
  apply retains_of_formulas consistent consistentLater separated separatedLater
    rows
  · intro index isKept
    have same := resembles.formulas index (not_not_intro isKept)
    rw [formulaAt?_shown, formulaAt?_shown] at same
    rw [← Option.map_eq_none_iff, ← same, Option.map_eq_none_iff]
  · intro index before after isKept isBefore isAfter x
    have same := resembles.formulas index (not_not_intro isKept)
    rw [formulaAt?_shown, formulaAt?_shown, isBefore, isAfter, Option.map_some,
      Option.map_some, Option.some.injEq] at same
    rw [same, Environment.evaluate_congr resembles.limits
      fun name _ target _ => resembles.meanings target]

theorem Corresponds.retains (definable : IsDefinable old) (differs : old ≠ new)
    (corresponds : Corresponds old new (fun index => ¬ kept index)
      (first.shown kept) (second.shown kept)) :
    first.Retains kept second := by
  apply retains_of_formulas consistent consistentLater separated separatedLater
    rows
  · intro index isKept
    have same := corresponds.map_expression (not_not_intro isKept)
    rw [formulaAt?_shown, formulaAt?_shown] at same
    rw [← Option.map_eq_none_iff, same, Option.map_eq_none_iff]
  · intro index before after isKept isBefore isAfter x
    have same := corresponds.map_expression (not_not_intro isKept)
    rw [formulaAt?_shown, formulaAt?_shown, isBefore, isAfter, Option.map_some,
      Option.map_some, Option.some.injEq] at same
    have notReferenced := corresponds.not_references differs
      (not_not_intro isKept) isBefore
    rw [same, corresponds.carries.definitions.evaluate_eq_mapError definable
      differs corresponds.back.definitions notReferenced, mapError_mapError]
    congr 1
    funext error
    exact DomainError.eraseNames_rename old new error

end Shown

/-- A row that is kept retains its values while another row is renamed that it
can follow. -/
theorem CanRename.retains (canRename : CanRename kept old new sheet)
    (consistent : IsConsistent start present (fun _ => False) sheet)
    (renames : sheet.rename old new = .ok renamed)
    (replaceable : ∀ source, IsReplaceable old new source) :
    sheet.Retains kept renamed := by
  obtain ⟨corresponds, separated⟩ :=
    canRename.corresponds_rename consistent renames replaceable
  apply corresponds.retains consistent (consistent.rename renames)
    canRename.separated separated ?_ canRename.definableOld canRename.differs
  intro index row isKept found
  obtain ⟨-, environment, indices, -, isIndex, rfl⟩ :=
    consistent.exists_replaced canRename.differs renames
  have mentioned : ∀ place ∈ indices, ∃ name,
      (sheet.replaced environment old new).MentionsAt name place :=
    fun place member => ⟨_, (mentionsAt_replaced_iff
      canRename.definableNew.identifier replaceable).mpr
        ⟨old, (isIndex place).mp member, rfl⟩⟩
  have foundReplaced : (sheet.replaced environment old new).rows[index]? =
      some ((row.relabel old new).renameIdentifiers old new) := by
    rw [getElem?_replaced, found, Option.map_some]
  obtain ⟨other, foundOther, blank⟩ :=
    exists_row_recompileAll mentioned foundReplaced
  refine ⟨other, foundOther, fun isBlank => ?_⟩
  rw [← blank isBlank, Row.state_renameIdentifiers]
  rfl

/-- A row that is kept retains its values while rows are compiled that are
steady. -/
theorem IsConsistent.retains_recompileAll
    (consistent : IsConsistent start present (fun _ => False) sheet)
    (separated : sheet.IsSeparated kept) {indices : List Nat}
    (mentioned : ∀ index ∈ indices, ∃ name, sheet.MentionsAt name index)
    (steady : ∀ index ∈ indices, kept index → sheet.IsSteadyAt kept index) :
    sheet.Retains kept (indices.foldl Worksheet.recompile sheet) := by
  obtain ⟨resembles, stillSeparated⟩ :=
    separated.resembles_recompileAll steady
  have consistentLater : IsConsistent start present (fun _ => False)
      (indices.foldl Worksheet.recompile sheet) :=
    (consistent.recompileAll indices).mono fun _ isPending => isPending.1
  exact resembles.retains consistent consistentLater separated stillSeparated
    fun index row _ found => exists_row_recompileAll mentioned found

end Worksheet
end GraphingCalculator
