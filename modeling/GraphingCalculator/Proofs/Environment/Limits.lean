import GraphingCalculator.Proofs.Environment.Nesting

/-!
# The limits of an evaluation

An evaluation keeps count of the calls and the derivatives that are under way,
and refuses to enter one more at the limit.  This alone makes it end, whatever
circles the functions form.  Whether it is refused depends on the nesting of the
expression and not on the number at which it is evaluated: within the limits no
evaluation is refused, and beyond them none has a value.
-/

namespace GraphingCalculator

/-- An evaluation was refused at a limit. -/
def HitsLimit {Value : Type} (result : Except DomainError Value) : Prop :=
  ∃ error, result = .error error ∧ error.isLimit = true

section HitsLimit

variable {First Second : Type}

@[simp]
theorem not_hitsLimit_ok (value : First) : ¬ HitsLimit (.ok value) := by
  rintro ⟨error, isError, -⟩
  contradiction

@[simp]
theorem hitsLimit_error_iff {error : DomainError} :
    HitsLimit (.error error : Except DomainError First) ↔
      error.isLimit = true := by
  simp [HitsLimit]

/-- A limit that is hit by either of two steps ends both. -/
theorem hitsLimit_bind_iff {first : Except DomainError First}
    {next : First → Except DomainError Second} :
    HitsLimit (first >>= next) ↔
      HitsLimit first ∨
        ∃ value, first = .ok value ∧ HitsLimit (next value) := by
  cases first with
  | error error => simp
  | ok value => simp

theorem not_hitsLimit_requireFinite (function : Text)
    (operand result : Float) :
    ¬ HitsLimit (requireFinite function operand result) := by
  unfold requireFinite
  split <;> simp [DomainError.isLimit]

theorem Operator.not_hitsLimit_apply (operator : Operator)
    (left right : Float) : ¬ HitsLimit (operator.apply left right) := by
  cases operator <;> simp only [apply] <;> try exact not_hitsLimit_ok _
  all_goals split <;> simp [DomainError.isLimit]

theorem BuiltinFunction.not_hitsLimit_apply (function : BuiltinFunction)
    (operand : Float) : ¬ HitsLimit (function.apply operand) := by
  unfold apply
  split
  · exact not_hitsLimit_requireFinite _ _ _
  · simp [DomainError.isLimit]

end HitsLimit

namespace Stencil

/-- The points at which a function is read for its derivative. -/
def points (x : Float) : List Float :=
  [x + 2 * step x, x + step x, x - step x, x - 2 * step x, x]

variable {f g : Float → Except DomainError Float} {x : Float}

theorem derivative_congr (same : ∀ point ∈ points x, f point = g point) :
    derivative f x = derivative g x := by
  have sampled {point : Float} (isPoint : point ∈ points x) :
      sample f point = sample g point := by
    unfold sample
    rw [same point isPoint]
  unfold derivative
  simp only [sampled (show x + 2 * step x ∈ points x by simp [points]),
    sampled (show x + step x ∈ points x by simp [points]),
    sampled (show x - step x ∈ points x by simp [points]),
    sampled (show x - 2 * step x ∈ points x by simp [points]),
    sampled (show x ∈ points x by simp [points])]

/-- A sample is missing where the function is undefined, but a limit is not
taken for that. -/
theorem sample_cases (f : Float → Except DomainError Float) (point : Float) :
    (HitsLimit (f point) ∧ HitsLimit (sample f point)) ∨
      (¬ HitsLimit (f point) ∧
        ∃ value, sample f point = .ok value) := by
  unfold sample
  cases f point with
  | ok value => exact .inr ⟨not_hitsLimit_ok value, some value, rfl⟩
  | error error =>
      dsimp only
      split
      next isLimit => exact .inl (by simp [isLimit])
      next notLimit =>
          exact .inr ⟨by simpa using notLimit, none, rfl⟩

private theorem hitsLimit_sample_bind_iff {Value : Type} {point : Float}
    {next : Option Float → Except DomainError Value} {Later : Prop}
    (goesOn : ∀ value, HitsLimit (next value) ↔ Later) :
    HitsLimit (sample f point >>= next) ↔ HitsLimit (f point) ∨ Later := by
  rw [hitsLimit_bind_iff]
  rcases sample_cases f point with ⟨hits, limit⟩ | ⟨misses, value, isValue⟩
  · simp [hits, limit]
  · simp [misses, isValue, goesOn]

/-- A limit hit at any of the points ends the derivative, and nothing else
does. -/
theorem hitsLimit_derivative_iff :
    HitsLimit (derivative f x) ↔ ∃ point ∈ points x, HitsLimit (f point) := by
  have samples : HitsLimit (derivative f x) ↔
      HitsLimit (f (x + 2 * step x)) ∨ HitsLimit (f (x + step x)) ∨
        HitsLimit (f (x - step x)) ∨ HitsLimit (f (x - 2 * step x)) ∨
          HitsLimit (f x) ∨ False := by
    refine hitsLimit_sample_bind_iff fun farAbove =>
      hitsLimit_sample_bind_iff fun above =>
        hitsLimit_sample_bind_iff fun below =>
          hitsLimit_sample_bind_iff fun farBelow =>
            hitsLimit_sample_bind_iff fun center => iff_false_intro ?_
    split
    next => exact not_hitsLimit_ok _
    next => simp [throw, throwThe, MonadExceptOf.throw, DomainError.isLimit]
  simpa [points] using samples

/-- A derivative has a value only where the function has one. -/
theorem exists_value_of_derivative {slope : Float}
    (differentiates : derivative f x = .ok slope) :
    ∃ value, f x = .ok value := by
  cases isValue : f x with
  | ok value => exact ⟨value, rfl⟩
  | error error =>
      exfalso
      unfold derivative at differentiates
      obtain ⟨farAbove, -, differentiates⟩ := bind_eq_ok_iff.mp differentiates
      obtain ⟨above, -, differentiates⟩ := bind_eq_ok_iff.mp differentiates
      obtain ⟨below, -, differentiates⟩ := bind_eq_ok_iff.mp differentiates
      obtain ⟨farBelow, -, differentiates⟩ := bind_eq_ok_iff.mp differentiates
      obtain ⟨center, isCenter, differentiates⟩ :=
        bind_eq_ok_iff.mp differentiates
      have missing : center = none := by
        rw [sample, isValue] at isCenter
        dsimp only at isCenter
        split at isCenter
        · contradiction
        · cases isCenter
          rfl
      rw [missing] at differentiates
      split at differentiates <;> contradiction

end Stencil

namespace Environment

/-- The evaluation of an expression while calls and derivatives are under way.
It reads the definitions as they are met, and at the limits it refuses to go
on. -/
inductive Evaluates (environment : Environment) :
    (calls derivatives : Nat) → Expression → Float →
      Except DomainError Float → Prop
  | freeVariable {calls derivatives : Nat} {x : Float} :
      Evaluates environment calls derivatives .freeVariable x (.ok x)
  | value {calls derivatives : Nat} {number x : Float} :
      Evaluates environment calls derivatives (.value number) x (.ok number)
  | constant {calls derivatives : Nat} {name : Text} {x number : Float}
      (isNumber : environment.constant? name = some number) :
      Evaluates environment calls derivatives (.constant name) x (.ok number)
  | undefinedConstant {calls derivatives : Nat} {name : Text} {x : Float}
      (undefined : environment.constant? name = none) :
      Evaluates environment calls derivatives (.constant name) x
        (.error (.undefined name))
  | binary {calls derivatives : Nat} {operator : Operator}
      {left right : Expression} {x : Float}
      {first second : Except DomainError Float}
      (isFirst : Evaluates environment calls derivatives left x first)
      (isSecond : Evaluates environment calls derivatives right x second) :
      Evaluates environment calls derivatives (.binary operator left right) x
        (first >>= fun first => second >>= fun second =>
          operator.apply first second)
  | apply {calls derivatives : Nat} {function : BuiltinFunction}
      {argument : Expression} {x : Float} {operand : Except DomainError Float}
      (isOperand : Evaluates environment calls derivatives argument x operand) :
      Evaluates environment calls derivatives (.apply function argument) x
        (operand >>= function.apply)
  | callFails {calls derivatives : Nat} {name : Text} {argument : Expression}
      {x : Float} {error : DomainError}
      (isOperand : Evaluates environment calls derivatives argument x
        (.error error)) :
      Evaluates environment calls derivatives (.call name argument) x
        (.error error)
  | undefinedCall {calls derivatives : Nat} {name : Text}
      {argument : Expression} {x operand : Float}
      (isOperand : Evaluates environment calls derivatives argument x
        (.ok operand))
      (undefined : environment.body? name = none) :
      Evaluates environment calls derivatives (.call name argument) x
        (.error (.undefined name))
  | callRefused {calls derivatives : Nat} {name : Text}
      {argument body : Expression} {x operand : Float}
      (isOperand : Evaluates environment calls derivatives argument x
        (.ok operand))
      (isBody : environment.body? name = some body)
      (limit : environment.limits.callDepth ≤ calls) :
      Evaluates environment calls derivatives (.call name argument) x
        (.error (.recursionLimit environment.limits.callDepth))
  | call {calls derivatives : Nat} {name : Text} {argument body : Expression}
      {x operand : Float} {result : Except DomainError Float}
      (isOperand : Evaluates environment calls derivatives argument x
        (.ok operand))
      (isBody : environment.body? name = some body)
      (allowed : calls < environment.limits.callDepth)
      (isResult : Evaluates environment (calls + 1) derivatives body operand
        result) :
      Evaluates environment calls derivatives (.call name argument) x
        (result >>= requireFinite name operand)
  | derivativeRefused {calls derivatives : Nat} {operand : Expression}
      {x : Float} (limit : environment.limits.derivativeDepth ≤ derivatives) :
      Evaluates environment calls derivatives (.derivative operand) x
        (.error (.derivativeLimit environment.limits.derivativeDepth))
  | derivative {calls derivatives : Nat} {operand : Expression} {x : Float}
      {f : Float → Except DomainError Float}
      (allowed : derivatives < environment.limits.derivativeDepth)
      (samples : ∀ point ∈ Stencil.points x,
        Evaluates environment calls (derivatives + 1) operand point
          (f point)) :
      Evaluates environment calls derivatives (.derivative operand) x
        (Stencil.derivative f x >>= requireFinite derivativeName x)

section Equations

variable (environment : Environment) (calls derivatives : Nat) (x : Float)

theorem evaluateWithin_binary (operator : Operator) (left right : Expression) :
    environment.evaluateWithin calls derivatives (.binary operator left right)
        x =
      environment.evaluateWithin calls derivatives left x >>= fun first =>
        environment.evaluateWithin calls derivatives right x >>= fun second =>
          operator.apply first second :=
  rfl

theorem evaluateWithin_apply (function : BuiltinFunction)
    (argument : Expression) :
    environment.evaluateWithin calls derivatives (.apply function argument) x =
      environment.evaluateWithin calls derivatives argument x >>=
        function.apply :=
  rfl

theorem evaluateWithin_call (name : Text) (argument : Expression) :
    environment.evaluateWithin calls derivatives (.call name argument) x =
      environment.evaluateWithin calls derivatives argument x >>=
        fun operand => environment.call calls name operand derivatives :=
  rfl

theorem evaluateWithin_derivative_zero (operand : Expression) :
    environment.evaluateWithin calls 0 (.derivative operand) x =
      .error (.derivativeLimit environment.limits.derivativeDepth) :=
  rfl

theorem evaluateWithin_derivative_succ (operand : Expression) :
    environment.evaluateWithin calls (derivatives + 1) (.derivative operand)
        x =
      Stencil.derivative
          (environment.evaluateWithin calls derivatives operand) x >>=
        requireFinite derivativeName x :=
  rfl

end Equations

section Evaluation

variable {environment : Environment}

theorem Evaluates.eq {calls derivatives : Nat} {expression : Expression}
    {x : Float} {result : Except DomainError Float}
    (evaluates : environment.Evaluates calls derivatives expression x result) :
    environment.evaluateWithin (environment.limits.callDepth - calls)
      (environment.limits.derivativeDepth - derivatives) expression x =
        result := by
  induction evaluates with
  | freeVariable | value => rfl
  | constant isNumber =>
      rw [evaluateWithin, Expression.evaluateWith, isNumber]
  | undefinedConstant undefined =>
      rw [evaluateWithin, Expression.evaluateWith, undefined]
  | binary isFirst isSecond firstIH secondIH =>
      rw [evaluateWithin_binary, firstIH, secondIH]
  | apply isOperand ih => rw [evaluateWithin_apply, ih]
  | callFails isOperand ih => rw [evaluateWithin_call, ih, error_bind]
  | undefinedCall isOperand undefined ih =>
      rw [evaluateWithin_call, ih, ok_bind, call_eq, undefined]
  | callRefused isOperand isBody limit ih =>
      rw [evaluateWithin_call, ih, ok_bind, call_eq, isBody,
        Nat.sub_eq_zero_of_le limit]
  | @call calls derivatives name argument body x operand result isOperand
      isBody allowed isResult operandIH resultIH =>
      have left : environment.limits.callDepth - calls =
          environment.limits.callDepth - (calls + 1) + 1 := by
        omega
      rw [evaluateWithin_call, operandIH, ok_bind, call_eq, isBody, left]
      simp only [resultIH]
  | derivativeRefused limit =>
      rw [Nat.sub_eq_zero_of_le limit, evaluateWithin_derivative_zero]
  | @derivative calls derivatives operand x f allowed samples ih =>
      have left : environment.limits.derivativeDepth - derivatives =
          environment.limits.derivativeDepth - (derivatives + 1) + 1 := by
        omega
      rw [left, evaluateWithin_derivative_succ,
        Stencil.derivative_congr fun point isPoint => ih point isPoint]

/-- An evaluation ends if it does below one more call: each other step makes
the expression smaller. -/
private theorem evaluates_of_deeper {calls : Nat}
    (deeper : calls < environment.limits.callDepth →
      ∀ derivatives body operand,
        environment.Evaluates (calls + 1) derivatives body operand
          (environment.evaluateWithin
            (environment.limits.callDepth - (calls + 1))
            (environment.limits.derivativeDepth - derivatives) body operand))
    (derivatives : Nat) (expression : Expression) (x : Float) :
    environment.Evaluates calls derivatives expression x
      (environment.evaluateWithin (environment.limits.callDepth - calls)
        (environment.limits.derivativeDepth - derivatives) expression x) := by
  induction expression generalizing derivatives x with
  | freeVariable => exact .freeVariable
  | value number => exact .value
  | constant name =>
      rw [evaluateWithin, Expression.evaluateWith]
      cases isNumber : environment.constant? name with
      | some number => exact .constant isNumber
      | none => exact .undefinedConstant isNumber
  | binary operator left right leftIH rightIH =>
      exact .binary (leftIH derivatives x) (rightIH derivatives x)
  | apply function argument ih => exact .apply (ih derivatives x)
  | call name argument ih =>
      have isOperand := ih derivatives x
      rw [evaluateWithin_call]
      cases reads : environment.evaluateWithin
          (environment.limits.callDepth - calls)
          (environment.limits.derivativeDepth - derivatives) argument x with
      | error error =>
          rw [reads] at isOperand
          exact .callFails isOperand
      | ok operand =>
          rw [reads] at isOperand
          rw [ok_bind, call_eq]
          cases isBody : environment.body? name with
          | none => exact .undefinedCall isOperand isBody
          | some body =>
              by_cases allowed : calls < environment.limits.callDepth
              · have left : environment.limits.callDepth - calls =
                    environment.limits.callDepth - (calls + 1) + 1 := by
                  omega
                rw [left]
                exact .call isOperand isBody allowed
                  (deeper allowed derivatives body operand)
              · have limit := Nat.le_of_not_lt allowed
                rw [Nat.sub_eq_zero_of_le limit]
                exact .callRefused isOperand isBody limit
  | derivative operand ih =>
      by_cases allowed : derivatives < environment.limits.derivativeDepth
      · have left : environment.limits.derivativeDepth - derivatives =
            environment.limits.derivativeDepth - (derivatives + 1) + 1 := by
          omega
        rw [left, evaluateWithin_derivative_succ]
        exact .derivative allowed fun point _ => ih (derivatives + 1) point
      · have limit := Nat.le_of_not_lt allowed
        rw [Nat.sub_eq_zero_of_le limit, evaluateWithin_derivative_zero]
        exact .derivativeRefused limit

/-- Every evaluation ends: with each call fewer calls are left, and the
expression becomes smaller in between. -/
theorem evaluates_evaluateWithin (calls derivatives : Nat)
    (expression : Expression) (x : Float) :
    environment.Evaluates calls derivatives expression x
      (environment.evaluateWithin (environment.limits.callDepth - calls)
        (environment.limits.derivativeDepth - derivatives) expression x) := by
  induction isLeft : environment.limits.callDepth - calls
    generalizing calls derivatives expression x with
  | zero =>
      rw [← isLeft]
      exact evaluates_of_deeper (fun allowed => by omega) _ _ _
  | succ left ih =>
      rw [← isLeft]
      refine evaluates_of_deeper (fun allowed derivatives body operand => ?_)
        _ _ _
      have oneLess : environment.limits.callDepth - (calls + 1) = left := by
        omega
      rw [oneLess]
      exact ih (calls + 1) derivatives body operand oneLess

/-- What is evaluated to a value is nested no deeper than allowed, on any path
inwards. -/
theorem Nests.le_of_evaluateWithin {callWeight derivativeWeight weight : Nat}
    {expression : Expression}
    (path : environment.Nests callWeight derivativeWeight expression weight)
    {calls derivatives : Nat} {x value : Float}
    (evaluates : environment.evaluateWithin calls derivatives expression x =
      .ok value) :
    weight ≤ calls * callWeight + derivatives * derivativeWeight := by
  induction path generalizing calls derivatives x value with
  | root expression => exact Nat.zero_le _
  | left path ih =>
      rw [evaluateWithin_binary] at evaluates
      obtain ⟨first, isFirst, -⟩ := bind_eq_ok_iff.mp evaluates
      exact ih isFirst
  | right path ih =>
      rw [evaluateWithin_binary] at evaluates
      obtain ⟨first, -, evaluates⟩ := bind_eq_ok_iff.mp evaluates
      obtain ⟨second, isSecond, -⟩ := bind_eq_ok_iff.mp evaluates
      exact ih isSecond
  | operand path ih =>
      rw [evaluateWithin_apply] at evaluates
      obtain ⟨operand, isOperand, -⟩ := bind_eq_ok_iff.mp evaluates
      exact ih isOperand
  | argument path ih =>
      rw [evaluateWithin_call] at evaluates
      obtain ⟨operand, isOperand, -⟩ := bind_eq_ok_iff.mp evaluates
      exact ih isOperand
  | @body name argument expression weight isBody path ih =>
      rw [evaluateWithin_call] at evaluates
      obtain ⟨operand, -, answers⟩ := bind_eq_ok_iff.mp evaluates
      rw [call_eq, isBody] at answers
      cases calls with
      | zero => contradiction
      | succ calls =>
          obtain ⟨result, isResult, -⟩ := bind_eq_ok_iff.mp answers
          have bounded := ih isResult
          rw [Nat.succ_mul]
          omega
  | @slope operand weight path ih =>
      cases derivatives with
      | zero => contradiction
      | succ derivatives =>
          rw [evaluateWithin_derivative_succ] at evaluates
          obtain ⟨slope, isSlope, -⟩ := bind_eq_ok_iff.mp evaluates
          obtain ⟨center, isCenter⟩ :=
            Stencil.exists_value_of_derivative isSlope
          have bounded := ih isCenter
          rw [Nat.succ_mul]
          omega

/-- An expression is nested deeper than allowed. -/
def Exceeds (environment : Environment) (calls derivatives : Nat)
    (expression : Expression) : Prop :=
  (calls : ℕ∞) < environment.callNesting expression ∨
    (derivatives : ℕ∞) < environment.derivativeNesting expression

theorem Exceeds.mono {calls derivatives : Nat} {inner outer : Expression}
    (exceeds : environment.Exceeds calls derivatives inner)
    (encloses : ∀ callWeight derivativeWeight,
      environment.nesting callWeight derivativeWeight inner ≤
        environment.nesting callWeight derivativeWeight outer) :
    environment.Exceeds calls derivatives outer :=
  exceeds.imp (fun exceeds => exceeds.trans_le (encloses 1 0))
    (fun exceeds => exceeds.trans_le (encloses 0 1))

/-- An evaluation hits a limit only if a call in it does, or if derivatives are
nested deeper than allowed. -/
private theorem exceeds_of_calls {calls : Nat}
    (refused : ∀ name argument operand derivatives,
      HitsLimit (environment.call calls name operand derivatives) →
        environment.Exceeds calls derivatives (.call name argument))
    {derivatives : Nat} {expression : Expression} {x : Float}
    (hits : HitsLimit
      (environment.evaluateWithin calls derivatives expression x)) :
    environment.Exceeds calls derivatives expression := by
  induction expression generalizing derivatives x with
  | freeVariable | value => exact absurd hits (not_hitsLimit_ok _)
  | constant name =>
      rw [evaluateWithin, Expression.evaluateWith] at hits
      split at hits <;> simp [DomainError.isLimit] at hits
  | binary operator left right leftIH rightIH =>
      rw [evaluateWithin_binary, hitsLimit_bind_iff] at hits
      rcases hits with hits | ⟨first, -, hits⟩
      · refine (leftIH hits).mono fun callWeight derivativeWeight => ?_
        rw [nesting_binary]
        exact le_max_left _ _
      rcases hitsLimit_bind_iff.mp hits with hits | ⟨second, -, hits⟩
      · refine (rightIH hits).mono fun callWeight derivativeWeight => ?_
        rw [nesting_binary]
        exact le_max_right _ _
      · exact absurd hits (operator.not_hitsLimit_apply first second)
  | apply function argument ih =>
      rw [evaluateWithin_apply, hitsLimit_bind_iff] at hits
      rcases hits with hits | ⟨operand, -, hits⟩
      · refine (ih hits).mono fun callWeight derivativeWeight => ?_
        rw [nesting_apply]
      · exact absurd hits (function.not_hitsLimit_apply operand)
  | call name argument ih =>
      rw [evaluateWithin_call, hitsLimit_bind_iff] at hits
      rcases hits with hits | ⟨operand, -, hits⟩
      · exact (ih hits).mono fun callWeight derivativeWeight =>
          nesting_le_iff.mpr fun weight path => path.argument.le_nesting
      · exact refused name argument operand derivatives hits
  | derivative operand ih =>
      cases derivatives with
      | zero =>
          right
          rw [derivativeNesting, nesting_derivative, Nat.cast_one]
          exact ENat.natCast_lt_add_one_iff.mpr bot_le
      | succ derivatives =>
          rw [evaluateWithin_derivative_succ, hitsLimit_bind_iff] at hits
          rcases hits with hits | ⟨slope, -, hits⟩
          · obtain ⟨point, -, hits⟩ :=
              Stencil.hitsLimit_derivative_iff.mp hits
            rcases ih hits with deeper | deeper
            · left
              rw [callNesting, nesting_derivative]
              exact deeper.trans_le le_self_add
            · right
              rw [derivativeNesting, nesting_derivative, Nat.cast_one]
              exact ENat.natCast_lt_add_one_iff.mpr
                (ENat.natCast_add_one_le_iff.mpr deeper)
          · exact absurd hits (not_hitsLimit_requireFinite _ _ _)

private theorem exceeds_of_hitsLimit_call {calls : Nat} (name : Text)
    (argument : Expression) (operand : Float) (derivatives : Nat)
    (hits : HitsLimit (environment.call calls name operand derivatives)) :
    environment.Exceeds calls derivatives (.call name argument) := by
  induction calls generalizing name argument operand derivatives with
  | zero =>
      rw [call_eq] at hits
      cases isBody : environment.body? name with
      | none => simp [isBody, DomainError.isLimit] at hits
      | some body =>
          left
          rw [callNesting, nesting_call isBody, Nat.cast_one]
          exact lt_max_of_lt_right (ENat.natCast_lt_add_one_iff.mpr bot_le)
  | succ calls ih =>
      rw [call_eq] at hits
      cases isBody : environment.body? name with
      | none => simp [isBody, DomainError.isLimit] at hits
      | some body =>
          simp only [isBody, hitsLimit_bind_iff] at hits
          rcases hits with hits | ⟨result, -, hits⟩
          · rcases exceeds_of_calls ih hits with deeper | deeper
            · left
              rw [callNesting, nesting_call isBody, Nat.cast_one]
              exact lt_max_of_lt_right (ENat.natCast_lt_add_one_iff.mpr
                (ENat.natCast_add_one_le_iff.mpr deeper))
            · right
              rw [derivativeNesting, nesting_call isBody]
              exact lt_max_of_lt_right (deeper.trans_le le_self_add)
          · exact absurd hits (not_hitsLimit_requireFinite _ _ _)

/-- A limit is hit only by what is nested deeper than allowed. -/
theorem exceeds_of_hitsLimit {calls derivatives : Nat}
    {expression : Expression} {x : Float}
    (hits : HitsLimit
      (environment.evaluateWithin calls derivatives expression x)) :
    environment.Exceeds calls derivatives expression :=
  exceeds_of_calls exceeds_of_hitsLimit_call hits

/-- An evaluation ends with one result, the one that is computed. -/
theorem evaluates_iff {expression : Expression} {x : Float}
    {result : Except DomainError Float} :
    environment.Evaluates 0 0 expression x result ↔
      environment.evaluate expression x = result := by
  constructor
  · exact Evaluates.eq
  · rintro rfl
    exact evaluates_evaluateWithin 0 0 expression x

theorem nesting_le_of_evaluateWithin (callWeight derivativeWeight : Nat)
    {calls derivatives : Nat} {expression : Expression} {x value : Float}
    (evaluates : environment.evaluateWithin calls derivatives expression x =
      .ok value) :
    environment.nesting callWeight derivativeWeight expression ≤
      (calls * callWeight + derivatives * derivativeWeight : Nat) :=
  nesting_le_iff.mpr fun _ path =>
    Nat.cast_le.mpr (path.le_of_evaluateWithin evaluates)

theorem callNesting_le_of_evaluate {expression : Expression} {x value : Float}
    (evaluates : environment.evaluate expression x = .ok value) :
    environment.callNesting expression ≤ environment.limits.callDepth := by
  simpa [callNesting] using nesting_le_of_evaluateWithin 1 0 evaluates

theorem derivativeNesting_le_of_evaluate {expression : Expression}
    {x value : Float}
    (evaluates : environment.evaluate expression x = .ok value) :
    environment.derivativeNesting expression ≤
      environment.limits.derivativeDepth := by
  simpa [derivativeNesting] using nesting_le_of_evaluateWithin 0 1 evaluates

/-- Every evaluation ends, and the nesting of calls and derivatives decides
about the limits: what has a value anywhere is nested no deeper than allowed,
and what is nested no deeper than allowed hits no limit anywhere.  So functions
that call each other in a circle never have a value.  A limit that is hit at a
point of a derivative is a limit hit by the derivative. -/
theorem limits_of_evaluate (environment : Environment)
    (expression : Expression) :
    (∀ x result, environment.Evaluates 0 0 expression x result ↔
      environment.evaluate expression x = result) ∧
      (∀ name argument body, environment.body? name = some body →
        environment.callNesting (.call name argument) =
          max (environment.callNesting argument)
            (environment.callNesting body + 1)) ∧
      (∀ x value, environment.evaluate expression x = .ok value →
        environment.callNesting expression ≤ environment.limits.callDepth ∧
          environment.derivativeNesting expression ≤
            environment.limits.derivativeDepth) ∧
      (environment.callNesting expression ≤ environment.limits.callDepth →
        environment.derivativeNesting expression ≤
          environment.limits.derivativeDepth →
        ∀ x, ¬ HitsLimit (environment.evaluate expression x)) ∧
      (environment.ReachesCycle expression →
        environment.callNesting expression = ⊤ ∧
          ∀ x value, environment.evaluate expression x ≠ .ok value) ∧
      ∀ calls derivatives operand x,
        HitsLimit (environment.evaluateWithin calls (derivatives + 1)
            (.derivative operand) x) ↔
          ∃ point ∈ Stencil.points x,
            HitsLimit
              (environment.evaluateWithin calls derivatives operand point) := by
  refine ⟨fun x result => evaluates_iff,
    fun name argument body isBody => nesting_call isBody argument,
    fun x value evaluates => ⟨callNesting_le_of_evaluate evaluates,
      derivativeNesting_le_of_evaluate evaluates⟩, ?_, ?_, ?_⟩
  · intro fewCalls fewDerivatives x hits
    rcases exceeds_of_hitsLimit hits with deeper | deeper
    · exact absurd fewCalls (not_le.mpr deeper)
    · exact absurd fewDerivatives (not_le.mpr deeper)
  · intro cyclic
    have endless := cyclic.callNesting_eq_top
    refine ⟨endless, fun x value evaluates => ?_⟩
    have bounded := callNesting_le_of_evaluate evaluates
    rw [endless, top_le_iff] at bounded
    exact ENat.natCast_ne_top _ bounded
  · intro calls derivatives operand x
    rw [evaluateWithin_derivative_succ, hitsLimit_bind_iff,
      Stencil.hitsLimit_derivative_iff]
    simp [not_hitsLimit_requireFinite]

end Evaluation
end Environment
end GraphingCalculator
