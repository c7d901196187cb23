import GraphingCalculator.Proofs.Environment.Limits

/-!
# Limits cut off, and change nothing else

A limit ends an evaluation or leaves it alone.  Two evaluations of the same
expression, the second under wider limits, go through the same steps up to the
point where the first one is refused.  So what was not refused is the same under
wider limits, down to the error.  This needs that a derivative does not take a
refusal at one of its points for a missing value, not even after another point
was missing.
-/

namespace GraphingCalculator

/-- A result under wider limits is the result under tight ones, unless that one
was refused. -/
def Widens {Value : Type} (tight wide : Except DomainError Value) : Prop :=
  ¬ HitsLimit tight → wide = tight

theorem Widens.refl {Value : Type} (result : Except DomainError Value) :
    Widens result result :=
  fun _ => rfl

theorem Widens.of_isLimit {Value : Type} {error : DomainError}
    (isLimit : error.isLimit = true) (wide : Except DomainError Value) :
    Widens (.error error) wide :=
  fun notRefused => absurd (hitsLimit_error_iff.mpr isLimit) notRefused

/-- The second step is reached under wider limits exactly if it is reached under
tight ones, unless the first step was refused. -/
theorem Widens.bind {First Second : Type}
    {tight wide : Except DomainError First}
    {next other : First → Except DomainError Second}
    (widens : Widens tight wide)
    (goesOn : ∀ value, Widens (next value) (other value)) :
    Widens (tight >>= next) (wide >>= other) := by
  intro notRefused
  rw [hitsLimit_bind_iff, not_or] at notRefused
  obtain ⟨firstNotRefused, nextNotRefused⟩ := notRefused
  rw [widens firstNotRefused]
  cases tight with
  | error error => rfl
  | ok value =>
      rw [ok_bind, ok_bind]
      exact goesOn value fun hits => nextNotRefused ⟨value, rfl, hits⟩

/-- A derivative that is not refused was refused at none of its points. -/
theorem Stencil.widens_derivative {f g : Float → Except DomainError Float}
    {x : Float} (widens : ∀ point ∈ points x, Widens (f point) (g point)) :
    Widens (derivative f x) (derivative g x) := by
  intro notRefused
  rw [hitsLimit_derivative_iff] at notRefused
  push Not at notRefused
  refine derivative_congr fun point isPoint => ?_
  exact widens point isPoint (notRefused point isPoint)

namespace Environment

variable {first second : Environment}

/-- Evaluations widen if the calls in them do. -/
private theorem widens_of_calls
    (same : ∀ name, first.userDefinition? name = second.userDefinition? name)
    {calls moreCalls : Nat}
    (answers : ∀ name operand derivatives moreDerivatives,
      derivatives ≤ moreDerivatives →
        Widens (first.call calls name operand derivatives)
          (second.call moreCalls name operand moreDerivatives))
    {derivatives moreDerivatives : Nat}
    (more : derivatives ≤ moreDerivatives) (expression : Expression)
    (x : Float) :
    Widens (first.evaluateWithin calls derivatives expression x)
      (second.evaluateWithin moreCalls moreDerivatives expression x) := by
  induction expression generalizing derivatives moreDerivatives x with
  | freeVariable | value number => exact .refl _
  | constant name =>
      have sameNumber : first.constant? name = second.constant? name :=
        constant?_congr (meaning?_congr (same name))
      rw [evaluateWithin, evaluateWithin, Expression.evaluateWith,
        Expression.evaluateWith, sameNumber]
      exact .refl _
  | binary operator left right leftIH rightIH =>
      rw [evaluateWithin_binary, evaluateWithin_binary]
      exact (leftIH more x).bind fun _ => (rightIH more x).bind fun _ =>
        .refl _
  | apply function argument ih =>
      rw [evaluateWithin_apply, evaluateWithin_apply]
      exact (ih more x).bind fun _ => .refl _
  | call name argument ih =>
      rw [evaluateWithin_call, evaluateWithin_call]
      exact (ih more x).bind fun operand => answers name operand _ _ more
  | derivative operand ih =>
      cases derivatives with
      | zero =>
          rw [evaluateWithin_derivative_zero]
          exact .of_isLimit rfl _
      | succ derivatives =>
          obtain ⟨others, rfl⟩ : ∃ others, moreDerivatives = others + 1 :=
            ⟨moreDerivatives - 1, by omega⟩
          rw [evaluateWithin_derivative_succ, evaluateWithin_derivative_succ]
          have widensPoints := Stencil.widens_derivative (x := x)
            fun point _ => ih (show derivatives ≤ others by omega) point
          exact widensPoints.bind fun _ => .refl _

/-- A call that is allowed is allowed with more calls left as well, and then it
evaluates the same body. -/
private theorem widens_call
    (same : ∀ name, first.userDefinition? name = second.userDefinition? name)
    {calls moreCalls : Nat} (moreCallsLeft : calls ≤ moreCalls) (name : Text)
    (operand : Float) (derivatives moreDerivatives : Nat)
    (more : derivatives ≤ moreDerivatives) :
    Widens (first.call calls name operand derivatives)
      (second.call moreCalls name operand moreDerivatives) := by
  induction calls generalizing moreCalls name operand derivatives
    moreDerivatives with
  | zero =>
      rw [call_eq, call_eq, body?_congr (meaning?_congr (same name))]
      cases second.body? name with
      | none => exact .refl _
      | some body => exact .of_isLimit rfl _
  | succ calls ih =>
      obtain ⟨others, rfl⟩ : ∃ others, moreCalls = others + 1 :=
        ⟨moreCalls - 1, by omega⟩
      rw [call_eq, call_eq, body?_congr (meaning?_congr (same name))]
      cases second.body? name with
      | none => exact .refl _
      | some body =>
          have fewer : calls ≤ others := by omega
          have widensBody := widens_of_calls same
            (fun name operand _ _ more => ih fewer name operand _ _ more) more
            body operand
          exact widensBody.bind fun _ => .refl _

/-- Limits cut evaluations off, and never alter a result: what an evaluation
gives that was not refused, a value or an error, it gives under wider limits as
well, however many calls and derivatives are under way already. -/
theorem evaluateWithin_of_not_hitsLimit {first second : Environment}
    (same : ∀ name, first.userDefinition? name = second.userDefinition? name)
    (callDepth_le : first.limits.callDepth ≤ second.limits.callDepth)
    (derivativeDepth_le :
      first.limits.derivativeDepth ≤ second.limits.derivativeDepth)
    (calls derivatives : Nat) (expression : Expression) (x : Float)
    (notRefused : ¬ HitsLimit
      (first.evaluateWithin (first.limits.callDepth - calls)
        (first.limits.derivativeDepth - derivatives) expression x)) :
    second.evaluateWithin (second.limits.callDepth - calls)
        (second.limits.derivativeDepth - derivatives) expression x =
      first.evaluateWithin (first.limits.callDepth - calls)
        (first.limits.derivativeDepth - derivatives) expression x := by
  have moreCalls : first.limits.callDepth - calls ≤
      second.limits.callDepth - calls := by
    omega
  have moreDerivatives : first.limits.derivativeDepth - derivatives ≤
      second.limits.derivativeDepth - derivatives := by
    omega
  exact widens_of_calls same
    (fun name operand _ _ more => widens_call same moreCalls name operand _ _
      more) moreDerivatives expression x notRefused

/-- A function whose derivative is missing, called with the last call and the
last derivative that are allowed, has no derivative under wider limits. -/
theorem evaluateWithin_of_not_hitsLimit_missing :
    let body : Expression := .derivative (.constant ['k'])
    let tight : Environment :=
      ⟨{ callDepth := 2, derivativeDepth := 1 },
        [(['f'], .function ⟨"d/dx(k)".toList, body⟩)], 0⟩
    let wide : Environment :=
      { tight with limits := { callDepth := 5, derivativeDepth := 3 } }
    ¬ HitsLimit (tight.evaluateWithin (2 - 1) (1 - 0)
        (.call ['f'] .freeVariable) 0) ∧
      wide.evaluateWithin (5 - 1) (3 - 0) (.call ['f'] .freeVariable) 0 =
        .error .noDerivative := by
  intro body tight wide
  have isMissing : tight.evaluateWithin (2 - 1) (1 - 0)
      (.call ['f'] .freeVariable) 0 = .error .noDerivative :=
    rfl
  have notRefused : ¬ HitsLimit (tight.evaluateWithin (2 - 1) (1 - 0)
      (.call ['f'] .freeVariable) 0) := by
    rw [isMissing]
    simp [DomainError.isLimit]
  refine ⟨notRefused, ?_⟩
  exact (evaluateWithin_of_not_hitsLimit (fun _ => rfl) (by decide) (by decide)
    1 0 _ _ notRefused).trans isMissing

end Environment
end GraphingCalculator
