import GraphingCalculator.Proofs.Environment.Evaluation

/-!
# Evaluation after a renaming

A renaming moves one definition to another name and turns the references in all
of them.  Every evaluation has its counterpart then: the renamed expression has
the same value in the renamed environment, or fails with the same error, in
which the new name stands for the old one.  Expressions that refer to the new
name from before are left out, since the renaming gives it a meaning.
-/

namespace GraphingCalculator

namespace DomainError

/-- The error with the name `old` turned to `new`. -/
def rename (old new : Text) : DomainError → DomainError
  | undefined name => undefined (Expression.renameName old new name)
  | invalidResult function operand =>
      invalidResult (Expression.renameName old new function) operand
  | error => error

@[simp]
theorem isLimit_rename (old new : Text) (error : DomainError) :
    (error.rename old new).isLimit = error.isLimit := by
  cases error <;> rfl

end DomainError

theorem Operator.apply_rename (old new : Text) (operator : Operator)
    (left right : Float) :
    (operator.apply left right).mapError (DomainError.rename old new) =
      operator.apply left right := by
  cases operator <;> simp only [apply] <;> try rfl
  all_goals split <;> rfl

theorem requireFinite_rename (old new function : Text)
    (operand result : Float) :
    (requireFinite function operand result).mapError
        (DomainError.rename old new) =
      requireFinite (Expression.renameName old new function) operand
        result := by
  unfold requireFinite
  split <;> rfl

/-- The errors of a built-in function name that function, which is never
renamed. -/
theorem BuiltinFunction.apply_rename {old : Text}
    (definable : IsDefinable old) (new : Text) (function : BuiltinFunction)
    (operand : Float) :
    (function.apply operand).mapError (DomainError.rename old new) =
      function.apply operand := by
  unfold apply
  split
  next =>
      rw [requireFinite_rename, Expression.renameName_of_ne
        (definable.ne_functionName function)]
  next => rfl

theorem Stencil.sample_mapError {translate : DomainError → DomainError}
    (sameLimit : ∀ error, (translate error).isLimit = error.isLimit)
    (f : Float → Except DomainError Float) (point : Float) :
    (sample f point).mapError translate =
      sample (fun point => (f point).mapError translate) point := by
  unfold sample
  dsimp only
  cases f point with
  | ok value => rfl
  | error error =>
      dsimp only [Except.mapError]
      rw [sameLimit]
      cases error.isLimit <;> rfl

/-- A translation of errors goes through a derivative if it takes no limit for
anything else and keeps the error of the derivative itself. -/
theorem Stencil.derivative_mapError {translate : DomainError → DomainError}
    (sameLimit : ∀ error, (translate error).isLimit = error.isLimit)
    (sameNoDerivative : translate .noDerivative = .noDerivative)
    (f : Float → Except DomainError Float) (x : Float) :
    (derivative f x).mapError translate =
      derivative (fun point => (f point).mapError translate) x := by
  simp only [derivative, mapError_bind, sample_mapError sameLimit]
  refine bind_congr fun farAbove => bind_congr fun above =>
    bind_congr fun below => bind_congr fun farBelow =>
      bind_congr fun center => ?_
  split
  next => rfl
  next => exact congrArg Except.error sameNoDerivative

namespace Environment

/-- Each definition of one environment stands in another one under the name that
it has after a renaming, and nothing else stands there. -/
structure Mirrors (old new : Text) (first second : Environment) : Prop where
  limits : second.limits = first.limits
  constants : ∀ name, name ≠ new →
    second.constant? (Expression.renameName old new name) =
      first.constant? name
  bodies : ∀ name, name ≠ new →
    second.body? (Expression.renameName old new name) =
      (first.body? name).map (Expression.rename old new)
  unreferenced : ∀ name expression, first.body? name = some expression →
    expression.references new = false

end Environment

namespace Expression

variable {old new : Text}

/-- What an expression evaluates to is renamed with the expression, if this
holds for the calls in it. -/
theorem evaluateWith_rename_eq {first second : Environment}
    {answer other : Text → Float → Nat → Except DomainError Float}
    (definable : IsDefinable old) (mirrors : first.Mirrors old new second)
    (answers : ∀ name, name ≠ new → ∀ operand derivatives,
      other (renameName old new name) operand derivatives =
        (answer name operand derivatives).mapError (DomainError.rename old new))
    {expression : Expression}
    (unreferenced : expression.references new = false) (derivatives : Nat)
    (x : Float) :
    (expression.rename old new).evaluateWith second other derivatives x =
      (expression.evaluateWith first answer derivatives x).mapError
        (DomainError.rename old new) := by
  induction expression generalizing derivatives x with
  | freeVariable | value => rfl
  | constant name =>
      have notNew : name ≠ new := by simpa [references] using unreferenced
      rw [rename, evaluateWith, evaluateWith, mirrors.constants name notNew]
      cases first.constant? name <;> rfl
  | binary operator left right leftIH rightIH =>
      rw [references, Bool.or_eq_false_iff] at unreferenced
      simp only [rename, evaluateWith, mapError_bind, leftIH unreferenced.1,
        rightIH unreferenced.2, Operator.apply_rename]
  | apply function argument ih =>
      simp only [rename, evaluateWith, mapError_bind, ih unreferenced,
        BuiltinFunction.apply_rename definable new]
  | call name argument ih =>
      rw [references, Bool.or_eq_false_iff] at unreferenced
      have notNew : name ≠ new := by simpa using unreferenced.1
      simp only [rename, evaluateWith, mapError_bind, ih unreferenced.2,
        answers name notNew]
  | derivative operand ih =>
      cases derivatives with
      | zero =>
          rw [rename, evaluateWith, evaluateWith, mirrors.limits]
          rfl
      | succ derivatives =>
          simp only [rename, evaluateWith, mapError_bind, ih unreferenced,
            Stencil.derivative_mapError (DomainError.isLimit_rename old new)
              rfl,
            requireFinite_rename,
            renameName_of_ne definable.ne_derivativeName]

end Expression

namespace Environment

variable {environment renamed first second : Environment} {old new : Text}

theorem Mirrors.call_eq (definable : IsDefinable old)
    (mirrors : first.Mirrors old new second) (calls : Nat) {name : Text}
    (notNew : name ≠ new) (operand : Float) (derivatives : Nat) :
    second.call calls (Expression.renameName old new name) operand
        derivatives =
      (first.call calls name operand derivatives).mapError
        (DomainError.rename old new) := by
  induction calls generalizing name operand derivatives with
  | zero =>
      rw [Environment.call_eq, Environment.call_eq,
        mirrors.bodies name notNew, mirrors.limits]
      cases first.body? name <;> rfl
  | succ calls ih =>
      rw [Environment.call_eq, Environment.call_eq,
        mirrors.bodies name notNew]
      cases isBody : first.body? name with
      | none => rfl
      | some expression =>
          have sameValue := Expression.evaluateWith_rename_eq definable mirrors
            (fun name notNew => ih notNew)
            (mirrors.unreferenced name expression isBody) derivatives operand
          simp only [Option.map_some, evaluateWithin, sameValue, mapError_bind,
            requireFinite_rename]

theorem keeps_rename (notBuiltin : builtinDefinition? old = none)
    (differs : old ≠ new)
    (renames : environment.rename old new = .ok renamed) :
    environment.Keeps old new renamed := by
  obtain ⟨-, available, -⟩ := (rename_eq_ok_iff differs).mp renames
  obtain ⟨definable, isFree⟩ := checkAvailable_eq_ok_iff.mp available
  have free : environment.meaning? new = none := by rw [meaning?, isFree]; rfl
  refine ⟨(limits_rename renames).symm, notBuiltin, definable.not_builtin, free,
    fun name meaning isMeaning => ?_⟩
  have notNew : name ≠ new := by
    rintro rfl
    rw [free] at isMeaning
    contradiction
  rw [meaning?_renameName renames differs notNew, isMeaning]
  rfl

/-- After a renaming the old name is free, and no function refers to it. -/
theorem not_contains_rename (reachable : environment.IsReachable)
    (differs : old ≠ new)
    (renames : environment.rename old new = .ok renamed) :
    renamed.contains old = false ∧
      ∀ name expression,
        renamed.meaning? name = some (.function expression) →
          expression.references old = false := by
  obtain ⟨isDefined, -, -⟩ := (rename_eq_ok_iff differs).mp renames
  have moved := userDefinition?_rename renames differs
  refine ⟨contains_eq_false_iff.mpr
    ⟨reachable.not_builtin isDefined, by simp [moved]⟩, ?_⟩
  intro name expression isFunction
  rw [meaning?, moved] at isFunction
  split at isFunction
  next => contradiction
  next =>
      rw [Option.map_map, Option.map_eq_some_iff] at isFunction
      obtain ⟨definition, -, isFunction⟩ := isFunction
      rw [Function.comp_apply, UserDefinition.meaning_renameReferences]
        at isFunction
      cases isMeaning : definition.meaning with
      | constant value =>
          rw [isMeaning] at isFunction
          contradiction
      | function source =>
          rw [isMeaning] at isFunction
          cases isFunction
          exact Expression.references_rename_old differs source

namespace Keeps

theorem mirrors (keeps : first.Keeps old new second)
    (moves : ∀ name, name ≠ new →
      second.meaning? (Expression.renameName old new name) =
        (first.meaning? name).map (Meaning.rename old new))
    (unreferenced : ∀ name expression,
      first.meaning? name = some (.function expression) →
        expression.references new = false) :
    first.Mirrors old new second := by
  refine ⟨keeps.limits.symm, fun name notNew => ?_, fun name notNew => ?_,
    fun name expression isBody =>
      unreferenced name expression (meaning?_of_body? isBody)⟩
  · cases builtin : builtinDefinition? name with
    | some definition =>
        rw [keeps.renameName_of_builtin builtin, constant?, constant?,
          definition?_of_builtin builtin, definition?_of_builtin builtin]
    | none =>
        rw [constant?_of_not_builtin (keeps.not_builtin_renameName builtin),
          constant?_of_not_builtin builtin, moves name notNew]
        rcases first.meaning? name with _ | _ | _ <;> rfl
  · cases builtin : builtinDefinition? name with
    | some definition =>
        rw [keeps.renameName_of_builtin builtin, body?_of_builtin builtin,
          body?_of_builtin builtin]
        rfl
    | none =>
        rw [body?_of_not_builtin (keeps.not_builtin_renameName builtin),
          body?_of_not_builtin builtin, moves name notNew]
        rcases first.meaning? name with _ | _ | _ <;> rfl

/-- If every definition can be carried over and back, then nothing else is
defined after the renaming. -/
theorem meaning?_eq (keeps : first.Keeps old new second)
    (back : second.Keeps new old first) {name : Text} (notNew : name ≠ new) :
    second.meaning? (Expression.renameName old new name) =
      (first.meaning? name).map (Meaning.rename old new) := by
  cases isMeaning : first.meaning? name with
  | some meaning => exact keeps.moves name meaning isMeaning
  | none =>
      cases isOther :
          second.meaning? (Expression.renameName old new name) with
      | none => rfl
      | some other =>
          have returned := back.moves _ other isOther
          rw [Expression.renameName_renameName notNew, isMeaning] at returned
          contradiction

/-- What can be carried over and back did not refer to the new name. -/
theorem not_references (differs : old ≠ new)
    (keeps : first.Keeps old new second) (back : second.Keeps new old first)
    {name : Text} {expression : Expression}
    (isFunction : first.meaning? name = some (.function expression)) :
    expression.references new = false := by
  have notNew := keeps.ne_new isFunction
  have returned := back.moves _ _ (keeps.moves name _ isFunction)
  rw [Expression.renameName_renameName notNew, isFunction,
    Option.some.injEq] at returned
  have same : expression = (expression.rename old new).rename new old :=
    Meaning.function.inj returned
  rw [same]
  exact Expression.references_rename_old differs.symm _

end Keeps

theorem mirrors_rename (reachable : environment.IsReachable)
    (differs : old ≠ new)
    (renames : environment.rename old new = .ok renamed)
    (unreferenced : ∀ name expression,
      environment.meaning? name = some (.function expression) →
        expression.references new = false) :
    environment.Mirrors old new renamed := by
  obtain ⟨isDefined, -, -⟩ := (rename_eq_ok_iff differs).mp renames
  have keeps := keeps_rename (reachable.not_builtin isDefined) differs renames
  exact keeps.mirrors
    (fun name notNew => meaning?_renameName renames differs notNew)
    unreferenced

/-- A renaming preserves evaluation, errors included.  Definitions keep their
kind and constants their value, what `old` stood for is found under `new`, and
the old name is gone afterwards. -/
theorem evaluate_rename (reachable : environment.IsReachable)
    (differs : old ≠ new)
    (renames : environment.rename old new = .ok renamed)
    (unreferenced : ∀ name expression,
      environment.meaning? name = some (.function expression) →
        expression.references new = false) :
    (∀ (expression : Expression) (x : Float),
      expression.references new = false →
        renamed.evaluate (expression.rename old new) x =
          (environment.evaluate expression x).mapError
            (DomainError.rename old new)) ∧
      (∀ name, name ≠ new →
        renamed.meaning? (Expression.renameName old new name) =
          (environment.meaning? name).map (Meaning.rename old new)) ∧
      (∃ meaning, environment.meaning? old = some meaning ∧
        renamed.meaning? new = some (meaning.rename old new)) ∧
      renamed.contains old = false ∧
      ∀ name expression,
        renamed.meaning? name = some (.function expression) →
          expression.references old = false := by
  obtain ⟨isDefined, -, -⟩ := (rename_eq_ok_iff differs).mp renames
  have definable := reachable.isDefinable isDefined
  have mirrors := mirrors_rename reachable differs renames unreferenced
  have carried {name : Text} (notNew : name ≠ new) :=
    meaning?_renameName renames differs notNew
  refine ⟨fun expression x notReferenced => ?_, fun name => carried, ?_,
    not_contains_rename reachable differs renames⟩
  · rw [evaluate, mirrors.limits]
    exact Expression.evaluateWith_rename_eq definable mirrors
      (fun name => mirrors.call_eq definable _) notReferenced _ x
  · obtain ⟨definition, isDefinition⟩ :=
      Option.ne_none_iff_exists'.mp isDefined
    have isMeaning : environment.meaning? old = some definition.meaning := by
      rw [meaning?, isDefinition, Option.map_some]
    refine ⟨definition.meaning, isMeaning, ?_⟩
    have moved := carried differs
    rwa [Expression.renameName_self, isMeaning, Option.map_some] at moved

/-- A function that calls itself runs out of calls under either name. -/
theorem evaluate_rename_endless :
    let environment := (Environment.empty {}).insert ['f']
      (.function ⟨"f(x)".toList, .call ['f'] .freeVariable⟩)
    environment.IsReachable ∧
      ∃ renamed, environment.rename ['f'] ['g'] = .ok renamed ∧
        ∀ x, renamed.evaluate (.call ['g'] .freeVariable) x =
          (environment.evaluate (.call ['f'] .freeVariable) x).mapError
            (DomainError.rename ['f'] ['g']) := by
  intro environment
  have registers : (Environment.empty {}).register ['f']
      ⟨"f(x)".toList, .call ['f'] .freeVariable⟩ =
        .ok (.function ⟨"f(x)".toList, .call ['f'] .freeVariable⟩,
          environment) := rfl
  have reachable := IsReachable.register (.empty {}) registers
  have available : environment.checkAvailable ['g'] = .ok () := rfl
  have renames := (rename_eq_ok_iff (by decide)).mpr
    ⟨show environment.userDefinition? ['f'] ≠ none by decide, available, rfl⟩
  have unreferenced : ∀ name expression,
      environment.meaning? name = some (.function expression) →
        expression.references ['g'] = false := by
    intro name expression isFunction
    rw [meaning?, userDefinition?_insert] at isFunction
    split at isFunction
    · cases isFunction
      decide
    · contradiction
  obtain ⟨evaluates, -⟩ :=
    evaluate_rename reachable (by decide) renames unreferenced
  exact ⟨reachable, _, renames,
    fun x => evaluates (.call ['f'] .freeVariable) x (by decide)⟩

end Environment
end GraphingCalculator
