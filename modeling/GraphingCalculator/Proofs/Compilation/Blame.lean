import GraphingCalculator.Proofs.Environment.Lookup
import GraphingCalculator.Proofs.Source.Lexing
import GraphingCalculator.Proofs.Source.Splitting

/-!
# Reported positions can be used

A position that an error reports is a byte of the text that was given, and the
text can be cut there: an error in an expression stands where its compilation
found it, moved by what stands before the expression.  The passes that slice a
text on the way to such an error slice it between two characters each time.
-/

namespace GraphingCalculator

open Text

/-- The position that an error in a definition reports. -/
def DefinitionError.position? : DefinitionError → Option Nat
  | malformed _ position => some position
  | invalidExpression error => some error.position
  | _ => none

/-- A stop with its error translated. -/
def Stop.map {Error Other : Type} (translate : Error → Other) :
    Stop Error → Stop Other
  | panic => panic
  | refusal error => refusal (translate error)

namespace Environment

section Slices

variable (environment : Environment)

/-- Compile a source, with slices of it. -/
def compileBySlices (source : Text) : Except (Stop SyntaxError) Formula := do
  let tokens ← Source.tokenizeBySlices environment.classify source
  (checkLength environment.limits tokens).mapError .refusal
  (Token.checkAdjacency tokens).mapError .refusal
  let ordered ← (Token.toPostfix tokens).mapError .refusal
  let expression ←
    (Expression.ofPostfix environment.limits.expressionDepth ordered).mapError
      .refusal
  return ⟨source, expression⟩

/-- Compile a source with slices of it, and define it under a name. -/
def defineBySlices (name source : Text) :
    Except (Stop DefinitionError) (UserDefinition × Environment) := do
  (environment.checkAvailable name).mapError .refusal
  let formula ← (environment.compileBySlices source).mapError
    (Stop.map .invalidExpression)
  (environment.register name formula).mapError .refusal

/-- Process a definition, with slices of it. -/
def processDefinitionBySlices (text : Text) :
    Except (Stop DefinitionError) (Text × Environment) := do
  let parts ← SplitDefinition.ofTextBySlices text
  let (_, defined) ←
    (environment.defineBySlices parts.name parts.expression).mapError
      (Stop.map (DefinitionError.shiftExpression parts.offset))
  return (parts.name, defined)

/-- No slice stops a compilation. -/
theorem compileBySlices_eq (source : Text) :
    environment.compileBySlices source =
      (environment.compile source).mapError .refusal := by
  unfold compileBySlices compile
  simp only [Source.tokenizeBySlices_eq, mapError_bind]
  rfl

theorem defineBySlices_eq (name source : Text) :
    environment.defineBySlices name source =
      (environment.define name source).mapError .refusal := by
  unfold defineBySlices define
  simp only [compileBySlices_eq, mapError_bind, mapError_mapError]
  rfl

/-- No slice stops the processing of a definition. -/
theorem processDefinitionBySlices_eq (text : Text) :
    environment.processDefinitionBySlices text =
      (environment.processDefinition text).mapError .refusal := by
  unfold processDefinitionBySlices processDefinition
  simp only [SplitDefinition.ofTextBySlices_eq, defineBySlices_eq,
    mapError_bind, mapError_mapError]
  rfl

end Slices

variable {environment : Environment} {text name source : Text}
variable {error : DefinitionError} {position : Nat}

/-- Neither the name of a definition nor its value is blamed on a position. -/
theorem position?_of_checkAvailable
    (fails : environment.checkAvailable name = .error error) :
    error.position? = none := by
  unfold checkAvailable at fails
  repeat' split at fails
  all_goals cases fails <;> rfl

theorem position?_of_definitionOf {formula : Formula}
    (fails : environment.definitionOf formula = .error error) :
    error.position? = none := by
  unfold definitionOf at fails
  repeat' split at fails
  all_goals cases fails <;> rfl

/-- A definition is blamed on a position where the compilation fails. -/
theorem exists_report_of_define
    (fails : environment.define name source = .error error)
    (isPosition : error.position? = some position) :
    ∃ reported, environment.compile source = .error reported ∧
      error = .invalidExpression reported := by
  rcases bind_eq_error_iff.mp fails with fails | ⟨_, -, fails⟩
  · rw [position?_of_checkAvailable fails] at isPosition
    contradiction
  rcases bind_eq_error_iff.mp fails with fails | ⟨formula, -, fails⟩
  · obtain ⟨reported, reports, rfl⟩ := (mapError_eq_error_iff _).mp fails
    exact ⟨reported, reports, rfl⟩
  rcases bind_eq_error_iff.mp fails with fails | ⟨_, -, fails⟩
  · rw [position?_of_checkAvailable fails] at isPosition
    contradiction
  rcases bind_eq_error_iff.mp fails with fails | ⟨_, -, fails⟩
  · rw [position?_of_definitionOf fails] at isPosition
    contradiction
  · contradiction

/-- A definition is blamed on a position where it cannot be split, or where the
compilation of its expression fails. -/
theorem exists_report_of_processDefinition
    (fails : environment.processDefinition text = .error error)
    (isPosition : error.position? = some position) :
    SplitDefinition.ofText text = .error error ∨
      ∃ parts reported, SplitDefinition.ofText text = .ok parts ∧
        environment.compile parts.expression = .error reported ∧
          error = .invalidExpression (reported.shift parts.offset) := by
  rcases bind_eq_error_iff.mp fails with fails | ⟨parts, splits, fails⟩
  · exact .inl fails
  refine .inr ⟨parts, ?_⟩
  rcases bind_eq_error_iff.mp fails with fails | ⟨_, -, fails⟩
  · obtain ⟨origin, failsDefine, rfl⟩ := (mapError_eq_error_iff _).mp fails
    have hasPosition : ∃ place, origin.position? = some place := by
      cases origin with
      | malformed fault place => exact ⟨place, rfl⟩
      | invalidExpression error => exact ⟨error.position, rfl⟩
      | _ => contradiction
    obtain ⟨place, isPlace⟩ := hasPosition
    obtain ⟨reported, reports, rfl⟩ :=
      exists_report_of_define failsDefine isPlace
    exact ⟨reported, splits, reports, rfl⟩
  · contradiction

/-- Where the compilation of the expression of a definition fails, the
definition has the same character. -/
theorem isBoundary_of_shift {parts : SplitDefinition}
    (splits : SplitDefinition.ofText text = .ok parts) {reported : SyntaxError}
    (reports : environment.compile parts.expression = .error reported) :
    IsBoundary text (reported.shift parts.offset).position ∧
      characterAt? text (reported.shift parts.offset).position =
        characterAt? parts.expression reported.position := by
  have isPosition : (reported.shift parts.offset).position =
      reported.position + parts.offset := rfl
  rw [isPosition]
  by_cases empty : parts.expression = []
  · rw [SplitDefinition.offset_of_ofText splits empty]
    rw [empty] at reports ⊢
    rw [position_of_compile_nil reports, Nat.zero_add]
    have atEnd := characterAt?_append text []
    rw [List.append_nil] at atEnd
    exact ⟨isBoundary_byteSize text, atEnd⟩
  · obtain ⟨written, front, back, -, isText, isOffset, -⟩ :=
      SplitDefinition.exists_front_of_ofText splits
    obtain ⟨before, character, after, isExpression, isPlace⟩ :=
      isStart_of_compile empty reports
    have isWhole : (front ++ before) ++ character :: (after ++ back) =
        text := by
      rw [← isText, ← isExpression]
      simp
    rw [isOffset, ← isPlace, Nat.add_comm, ← byteSize_append, ← isWhole,
      ← isExpression, characterAt?_append, characterAt?_append]
    exact ⟨⟨_, _, rfl, rfl⟩, rfl⟩

/-- Every position that an error reports is a boundary of the text.  An error
in the expression of a definition is the error of its compilation, and blames
the same character.  No slice on the way stops the program. -/
theorem positions_of_errors (environment : Environment) (text : Text) :
    (∀ error, environment.compile text = .error error →
        error.position ≤ byteSize text ∧
          String.Pos.Raw.IsValid (String.ofList text) ⟨error.position⟩) ∧
      (∀ error position, DefinitionError.position? error = some position →
        SplitDefinition.ofText text = .error error ∨
            environment.processDefinition text = .error error →
          position ≤ byteSize text ∧
            String.Pos.Raw.IsValid (String.ofList text) ⟨position⟩) ∧
      (∀ error,
        environment.processDefinition text =
            .error (.invalidExpression error) →
          ∃ parts reported, SplitDefinition.ofText text = .ok parts ∧
            environment.compile parts.expression = .error reported ∧
            IsTrimmed parts.expression ∧
            error = reported.shift parts.offset ∧
            (∃ front back, front ++ (parts.expression ++ back) = text ∧
              byteSize front = parts.offset) ∧
            characterAt? text error.position =
              characterAt? parts.expression reported.position) ∧
      environment.compileBySlices text =
        (environment.compile text).mapError .refusal ∧
      SplitDefinition.ofTextBySlices text =
        (SplitDefinition.ofText text).mapError .refusal ∧
      environment.processDefinitionBySlices text =
        (environment.processDefinition text).mapError .refusal := by
  have isUsable {position : Nat} (boundary : IsBoundary text position) :
      position ≤ byteSize text ∧
        String.Pos.Raw.IsValid (String.ofList text) ⟨position⟩ :=
    ⟨boundary.le_byteSize, isBoundary_iff_isValid.mp boundary⟩
  have ofSplitting {error : DefinitionError} {position : Nat}
      (isPosition : error.position? = some position)
      (fails : SplitDefinition.ofText text = .error error) :
      IsBoundary text position := by
    rcases SplitDefinition.error_of_ofText fails with
      rfl | rfl | ⟨fault, place, rfl⟩
    · contradiction
    · contradiction
    · cases isPosition
      exact (SplitDefinition.isStart_of_ofText fails).isBoundary
  refine ⟨fun error fails => isUsable (isBoundary_of_compile fails),
    fun error position isPosition fails => isUsable ?_, fun error fails => ?_,
    environment.compileBySlices_eq text, SplitDefinition.ofTextBySlices_eq text,
    environment.processDefinitionBySlices_eq text⟩
  · rcases fails with fails | fails
    · exact ofSplitting isPosition fails
    rcases exists_report_of_processDefinition fails isPosition with
      fails | ⟨parts, reported, splits, reports, rfl⟩
    · exact ofSplitting isPosition fails
    · cases isPosition
      exact (isBoundary_of_shift splits reports).1
  · rcases exists_report_of_processDefinition fails rfl with
      fails | ⟨parts, reported, splits, reports, isError⟩
    · simpa using SplitDefinition.error_of_ofText fails
    · cases isError
      obtain ⟨written, front, back, -, isText, isOffset, trimmed, -⟩ :=
        SplitDefinition.exists_front_of_ofText splits
      exact ⟨parts, reported, splits, reports, trimmed, rfl,
        ⟨front, back, isText, isOffset.symm⟩,
        (isBoundary_of_shift splits reports).2⟩

/-- A parenthesis between characters of several bytes is found again in the
definition that it stands in. -/
theorem positions_of_errors_wide :
    let text := "r =\u3000é(".toList
    (empty {}).processDefinition text =
        .error (.invalidExpression ⟨.unclosed, 8⟩) ∧
      8 ≤ byteSize text ∧
      String.Pos.Raw.IsValid (String.ofList text) ⟨8⟩ ∧
      ∃ (parts : SplitDefinition) (reported : SyntaxError),
        (empty {}).compile parts.expression = .error reported ∧
        (⟨.unclosed, 8⟩ : SyntaxError) = reported.shift parts.offset ∧
        characterAt? parts.expression reported.position = some '(' := by
  intro text
  have fails : (empty {}).processDefinition text =
      .error (.invalidExpression ⟨.unclosed, 8⟩) := by
    decide +kernel
  have isCharacter : characterAt? text 8 = some '(' := by
    decide +kernel
  obtain ⟨-, usable, designates, -⟩ := positions_of_errors (empty {}) text
  obtain ⟨inText, isValid⟩ := usable _ 8 rfl (.inr fails)
  obtain ⟨parts, reported, -, reports, -, isShifted, -, sameCharacter⟩ :=
    designates _ fails
  exact ⟨fails, inText, isValid, parts, reported, reports, isShifted,
    sameCharacter.symm.trans isCharacter⟩

end Environment
end GraphingCalculator
