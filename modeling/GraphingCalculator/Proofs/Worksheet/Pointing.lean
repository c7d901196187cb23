import GraphingCalculator.Proofs.Compilation.Positions
import GraphingCalculator.Proofs.Worksheet.Layout

/-!
# Where the errors of rows point

The position of an error is fixed by the compilation that finds it, as a
position in the text of that moment.  A renaming that changes the body of a row
is followed by another compilation.  One that changes only the name before the
body is not: it moves the body, but not the position.
-/

namespace GraphingCalculator

open Text

namespace Row

variable {log : List Compilation} {environment : Environment}
variable {row later : Row} {error : CalculationError}

/-- The error of a body is reported by its compilation, and moved to where the
body begins. -/
theorem exists_report_of_compile {error : SyntaxError}
    (fails : (row.compile environment).1 = .failed (.inSource error)) :
    row.body ≠ [] ∧ ∃ reported,
      (environment.remove row.name).2.compile row.body = .error reported ∧
        error = reported.shift row.offset := by
  unfold compile at fails
  dsimp only at fails
  split at fails
  · contradiction
  next visible =>
      refine ⟨fun noBody => visible (by rw [noBody]; rfl), ?_⟩
      split at fails
      next reported reports =>
          cases fails
          exact ⟨reported, reports, rfl⟩
      next =>
          split at fails <;> cases fails

/-- The error of a row is that of a compilation since which the row kept its
body. -/
def IsRecorded (log : List Compilation) (row : Row) : Prop :=
  ∀ error, row.error? = some (.inSource error) →
    ∃ environment recorded, (environment, recorded) ∈ log ∧
      recorded.IsPlaced ∧
        (recorded.compile environment).1 = .failed (.inSource error) ∧
          Relation.ReflTransGen Keeps (recorded.compiled environment) row

theorem error?_compiled_eq_some_iff :
    (row.compiled environment).error? = some error ↔
      (row.compile environment).1 = .failed error := by
  rw [error?, compiled]
  dsimp only
  split
  next found isFailed => rw [isFailed, State.failed.injEq, Option.some.injEq]
  next notFailed =>
      simp only [false_iff, reduceCtorEq]
      exact notFailed error

/-- An error is recorded by its own compilation. -/
theorem isRecorded_compiled (logged : (environment, row.outline) ∈ log)
    (placed : (row.compiled environment).IsPlaced) :
    (row.compiled environment).IsRecorded log := by
  intro error isError
  have fails := error?_compiled_eq_some_iff.mp isError
  have hasBody : (row.compiled environment).body ≠ [] :=
    (exists_report_of_compile fails).1
  exact ⟨environment, row.outline, logged, placed.withState hasBody _, fails,
    .refl⟩

theorem Keeps.error?_eq (keeps : Keeps row later) :
    later.error? = row.error? := by
  cases keeps with
  | enable => rfl
  | rename => rw [error?, error?, state_rename]

theorem IsRecorded.step (recorded : row.IsRecorded log)
    (step : Step log row later) (placed : later.IsPlaced) :
    later.IsRecorded log := by
  cases step with
  | keep keeps =>
      intro error isError
      rw [keeps.error?_eq] at isError
      obtain ⟨environment, before, logged, isPlaced, fails, steps⟩ :=
        recorded error isError
      exact ⟨environment, before, logged, isPlaced, fails, steps.tail keeps⟩
  | compile hasBody logged => exact isRecorded_compiled logged placed
  | rename definable hasBody logged => exact isRecorded_compiled logged placed
  | type reads definable logged => exact isRecorded_compiled logged placed
  | refuse text refusal =>
      intro error isError
      simp [error?] at isError

theorem isRecorded_of_hasHistory (history : row.HasHistory log) :
    row.IsRecorded log := by
  obtain ⟨name, definable, steps⟩ := history
  induction steps with
  | refl =>
      intro error isError
      simp [error?, empty] at isError
  | tail before step recorded =>
      exact recorded.step step
        (isPlaced_of_hasHistory ⟨name, definable, before.tail step⟩)

/-- While a row keeps its body, only the name before it changes, and nothing
changes in a text without an equals sign. -/
theorem IsLaidOut.keepsAll {written? : Option Text} {front back : Text}
    (laidOut : row.IsLaidOut written? front back) (hasBody : row.body ≠ [])
    (steps : Relation.ReflTransGen Keeps row later) :
    later.body = row.body ∧
      (∃ laterWritten? laterFront,
        later.IsLaidOut laterWritten? laterFront back) ∧
        ('=' ∉ later.text → later.text = row.text) := by
  induction steps with
  | refl => exact ⟨rfl, ⟨written?, front, laidOut⟩, fun _ => rfl⟩
  | tail _ keeps ih =>
      obtain ⟨sameBody, ⟨middleWritten?, middleFront, middle⟩, sameText⟩ := ih
      cases keeps with
      | enable isEnabled =>
          exact ⟨sameBody, ⟨_, _, middle.congr rfl rfl rfl⟩, sameText⟩
      | @rename old new definable keepsBody =>
          have renamed := middle.rename definable.identifier old
            (.inl (sameBody ▸ hasBody))
          refine ⟨by rw [body_rename, keepsBody, sameBody], ⟨_, _, renamed⟩,
            fun noEquals => ?_⟩
          cases middleWritten? with
          | some written =>
              refine absurd ?_ noEquals
              rw [← renamed.isText]
              exact List.mem_append_left _ renamed.isFront.mem_equals
          | none =>
              have sameFront := renameIdentifier_of_isWhite
                middle.isFront.isWhite old new
              rw [text_rename, middle.renameIdentifier_text, keepsBody,
                sameFront, middle.isText] at noEquals ⊢
              exact sameText noEquals

end Row

namespace Worksheet

/-- The error of a body is reported when the row is compiled, at a position in
the body, and moved to where the body begins at that moment.  Since then the row
kept its body and was renamed only, so that its error points into the body just
as long as the name before it keeps its size.  In a text without an equals sign
there is no such name, and nothing changes. -/
theorem position_performAll (start : Environment)
    (operations : List Operation) :
    ∀ row ∈ ((ofEnvironment start).performAll operations).rows, ∀ error,
      row.error? = some (.inSource error) →
        ∃ environment recorded reported front back,
          (environment, recorded) ∈
              (ofEnvironment start).compilationsAll operations ∧
            Relation.ReflTransGen Row.Keeps (recorded.compiled environment)
              row ∧
            (environment.remove recorded.name).2.compile row.body =
              .error reported ∧
            error = reported.shift recorded.offset ∧
            IsBoundary row.body reported.position ∧
            front ++ (row.body ++ back) = row.text ∧
            row.offset = byteSize front ∧
            (error.position = row.offset + reported.position ↔
              byteSize row.text = byteSize recorded.text) ∧
            (byteSize row.text = byteSize recorded.text →
              row.offset ≤ error.position ∧
                error.position ≤ row.offset + byteSize row.body) ∧
            ('=' ∉ row.text → row.text = recorded.text) := by
  intro row member error isError
  have history := hasHistories_performAll start operations row member
  obtain ⟨environment, recorded, logged, placed, fails, steps⟩ :=
    Row.isRecorded_of_hasHistory history error isError
  obtain ⟨hasBody, reported, reports, rfl⟩ :=
    Row.exists_report_of_compile fails
  obtain ⟨written?, front, back, laidOut, -⟩ :=
    placed.exists_isLaidOut (.inl hasBody)
  have isCompiled : (recorded.compiled environment).IsLaidOut written? front
      back := laidOut.congr rfl rfl rfl
  obtain ⟨sameBody, ⟨laterWritten?, laterFront, later⟩, sameText⟩ :=
    isCompiled.keepsAll hasBody steps
  replace sameBody : row.body = recorded.body := sameBody
  rw [← sameBody] at reports
  have boundary := Environment.isBoundary_of_compile reports
  have inBody := boundary.le_byteSize
  have size : byteSize recorded.text =
      recorded.offset + byteSize row.body + byteSize back := by
    rw [← laidOut.isText, laidOut.isOffset, sameBody]
    simp [Nat.add_assoc]
  have laterSize : byteSize row.text =
      row.offset + byteSize row.body + byteSize back := by
    rw [← later.isText, later.isOffset]
    simp [Nat.add_assoc]
  have isPosition : (reported.shift recorded.offset).position =
      reported.position + recorded.offset := rfl
  exact ⟨environment, recorded, reported, laterFront, back, logged, steps,
    reports, rfl, boundary, later.isText, later.isOffset, by omega,
    fun sameSize => ⟨by omega, by omega⟩, sameText⟩

/-- A row that is typed without a name can be renamed as one likes: its error
points into its body. -/
theorem position_rename_unwritten :
    let sheet := (ofEnvironment (.empty {})).performAll
      [.pushRow, .edit 0 "  (x".toList,
        .rename "y1".toList "longer".toList]
    ∃ row ∈ sheet.rows, row.name = "longer".toList ∧ ∃ error,
      row.error? = some (.inSource error) ∧ row.offset ≤ error.position ∧
        error.position ≤ row.offset + byteSize row.body := by
  intro sheet
  have found : ∃ row ∈ sheet.rows, row.name = "longer".toList ∧
      row.text = "  (x".toList ∧
        row.error? = some (.inSource ⟨.unclosed, 2⟩) := by
    decide +kernel
  obtain ⟨row, member, isName, isText, isError⟩ := found
  obtain ⟨environment, recorded, reported, front, back, -, -, -, -, -, -, -, -,
    inBody, sameText⟩ := position_performAll _ _ row member _ isError
  have noEquals : '=' ∉ row.text := by
    rw [isText]
    decide
  exact ⟨row, member, isName, _, isError,
    inBody (congrArg byteSize (sameText noEquals))⟩

/-- A longer name moves the body and leaves the error behind, so that no
position in the body is blamed. -/
theorem position_rename_longer :
    let sheet := (ofEnvironment (.empty {})).performAll
      [.pushRow, .edit 0 "a = (x".toList,
        .rename "a".toList "longer".toList]
    ∃ row ∈ sheet.rows, row.text = "longer = (x".toList ∧ ∃ error,
      row.error? = some (.inSource error) ∧ error.position < row.offset ∧
        ∀ reported : SyntaxError,
          error.position ≠ row.offset + reported.position := by
  intro sheet
  have found : ∃ row ∈ sheet.rows, row.text = "longer = (x".toList ∧
      row.offset = 9 ∧ row.error? = some (.inSource ⟨.unclosed, 4⟩) := by
    decide +kernel
  obtain ⟨row, member, isText, isOffset, isError⟩ := found
  refine ⟨row, member, isText, ⟨.unclosed, 4⟩, isError, ?_, fun reported => ?_⟩
  · rw [isOffset]
    decide
  · rw [isOffset]
    change 4 ≠ 9 + reported.position
    omega

end Worksheet
end GraphingCalculator
