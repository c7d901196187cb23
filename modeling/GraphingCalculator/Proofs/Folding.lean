import GraphingCalculator.Environment.Editing

/-!
# Folding keeps the meaning of an expression

Folding replaces parts of an expression before anything is known about the
number at which it will be evaluated, and before the functions that it calls
have to exist.  This file proves that no evaluation can tell the difference:
within any budgets the folded expression has the same value, or fails with the
same error, and it is accepted or refused as a definition for the same reason.
-/

namespace GraphingCalculator

namespace Expression

theorem fold_binary (operator : Operator) (left right : Expression) :
    (binary operator left right).fold =
      foldBinary operator left.fold right.fold :=
  rfl

theorem fold_apply (function : BuiltinFunction) (argument : Expression) :
    (apply function argument).fold = foldApply function argument.fold :=
  rfl

/-- An operator is folded only between two values, and only when it has a
value there itself. -/
theorem foldBinary_eq (operator : Operator) (left right : Expression) :
    foldBinary operator left right = binary operator left right ∨
      ∃ first second result,
        left = value first ∧ right = value second ∧
          operator.apply first second = .ok result ∧
            foldBinary operator left right = value result := by
  unfold foldBinary
  split
  next first second =>
      cases applied : operator.apply first second with
      | ok result => exact .inr ⟨first, second, result, rfl, rfl, applied, rfl⟩
      | error error => exact .inl rfl
  next => exact .inl rfl

/-- A built-in function is folded only at a value, and only when it has a value
there itself. -/
theorem foldApply_eq (function : BuiltinFunction) (argument : Expression) :
    foldApply function argument = apply function argument ∨
      ∃ operand result,
        argument = value operand ∧ function.apply operand = .ok result ∧
          foldApply function argument = value result := by
  unfold foldApply
  split
  next operand =>
      cases applied : function.apply operand with
      | ok result => exact .inr ⟨operand, result, rfl, applied, rfl⟩
      | error error => exact .inl rfl
  next => exact .inl rfl

section Evaluation

variable (environment : Environment)
variable (answer : Text → Float → Nat → Except DomainError Float)

theorem evaluateWith_foldBinary (operator : Operator)
    (left right : Expression) (derivatives : Nat) (x : Float) :
    (foldBinary operator left right).evaluateWith environment answer
        derivatives x =
      (binary operator left right).evaluateWith environment answer
        derivatives x := by
  rcases foldBinary_eq operator left right with same | folded
  · rw [same]
  · obtain ⟨first, second, result, rfl, rfl, applied, isValue⟩ := folded
    rw [isValue]
    simp only [evaluateWith]
    exact applied.symm

theorem evaluateWith_foldApply (function : BuiltinFunction)
    (argument : Expression) (derivatives : Nat) (x : Float) :
    (foldApply function argument).evaluateWith environment answer
        derivatives x =
      (apply function argument).evaluateWith environment answer
        derivatives x := by
  rcases foldApply_eq function argument with same | folded
  · rw [same]
  · obtain ⟨operand, result, rfl, applied, isValue⟩ := folded
    rw [isValue]
    simp only [evaluateWith]
    exact applied.symm

/-- The derivative hands its operand on as a function of the point, so that
the statement has to hold for all points and budgets at once. -/
theorem evaluateWith_fold (expression : Expression) (derivatives : Nat)
    (x : Float) :
    expression.fold.evaluateWith environment answer derivatives x =
      expression.evaluateWith environment answer derivatives x := by
  induction expression generalizing derivatives x with
  | freeVariable => rfl
  | value number => rfl
  | constant name => rfl
  | binary operator left right leftIH rightIH =>
      rw [fold_binary, evaluateWith_foldBinary]
      simp only [evaluateWith, leftIH, rightIH]
  | apply function argument ih =>
      rw [fold_apply, evaluateWith_foldApply]
      simp only [evaluateWith, ih]
  | call name argument ih =>
      simp only [fold, evaluateWith, ih]
  | derivative operand ih =>
      cases derivatives with
      | zero => rfl
      | succ derivatives =>
          simp only [fold, evaluateWith, ih]

end Evaluation

@[simp]
theorem usesVariable_fold (expression : Expression) :
    expression.fold.usesVariable = expression.usesVariable := by
  induction expression with
  | freeVariable | value | constant => rfl
  | binary operator left right leftIH rightIH =>
      rw [fold_binary]
      rcases foldBinary_eq operator left.fold right.fold with same | folded
      · rw [same, usesVariable, usesVariable, leftIH, rightIH]
      · obtain ⟨first, second, result, leftValue, rightValue, -, isValue⟩ :=
          folded
        rw [isValue, usesVariable, usesVariable, ← leftIH, ← rightIH,
          leftValue, rightValue]
        rfl
  | apply function argument ih =>
      rw [fold_apply]
      rcases foldApply_eq function argument.fold with same | folded
      · rw [same, usesVariable, usesVariable, ih]
      · obtain ⟨operand, result, argumentValue, -, isValue⟩ := folded
        rw [isValue, usesVariable, usesVariable, ← ih, argumentValue]
        rfl
  | call name argument ih => exact ih
  | derivative operand ih => rfl

end Expression

namespace Environment

/-- Within every budget a folded expression has the value of the unfolded one,
or its error; and where an expression is evaluated when it is defined, folding
neither adds nor removes nor changes the error that refuses it. -/
theorem evaluateWithin_fold (environment : Environment)
    (expression : Expression) :
    (∀ calls derivatives x,
        environment.evaluateWithin calls derivatives expression.fold x =
          environment.evaluateWithin calls derivatives expression x) ∧
      ∀ source error,
        environment.definitionOf ⟨source, expression.fold⟩ = .error error ↔
          environment.definitionOf ⟨source, expression⟩ = .error error := by
  have sameValue (calls derivatives : Nat) (x : Float) :
      environment.evaluateWithin calls derivatives expression.fold x =
        environment.evaluateWithin calls derivatives expression x :=
    Expression.evaluateWith_fold environment (environment.call calls)
      expression derivatives x
  refine ⟨sameValue, fun source error => ?_⟩
  have sameKind : (⟨source, expression.fold⟩ : Formula).usesVariable =
      (⟨source, expression⟩ : Formula).usesVariable :=
    Expression.usesVariable_fold expression
  simp only [definitionOf, evaluate, sameKind, sameValue]
  cases (⟨source, expression⟩ : Formula).usesVariable with
  | true => simp
  | false => rfl

end Environment
end GraphingCalculator
