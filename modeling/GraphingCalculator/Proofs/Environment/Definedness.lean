import GraphingCalculator.Proofs.Environment.Grounding

/-!
# No evaluation misses a name

An error that names a definition, because it is missing or because calls are
nested too deeply, comes from a constant or from a call.  Where every name is
resolved and functions are ranked, no name is missing, and each call that is
entered leads to a lower rank; so the calls run out only if there are more
functions than calls.
-/

namespace GraphingCalculator

/-- Check whether an error is about a definition of the user, and not about the
numbers that were computed. -/
def DomainError.isAboutName : DomainError → Bool
  | undefined _ | recursionLimit _ => true
  | _ => false

section Arithmetic

variable {error : DomainError}

theorem isAboutName_of_requireFinite {function : Text}
    {operand result : Float}
    (fails : requireFinite function operand result = .error error) :
    error.isAboutName = false := by
  unfold requireFinite at fails
  split at fails <;> cases fails
  rfl

theorem Operator.isAboutName_of_apply {operator : Operator}
    {left right : Float}
    (fails : operator.apply left right = .error error) :
    error.isAboutName = false := by
  cases operator <;> simp only [apply] at fails
  case plus | minus | times => contradiction
  all_goals
    split at fails <;> cases fails
    rfl

theorem BuiltinFunction.isAboutName_of_apply {function : BuiltinFunction}
    {operand : Float} (fails : function.apply operand = .error error) :
    error.isAboutName = false := by
  unfold apply at fails
  split at fails
  · exact isAboutName_of_requireFinite fails
  · cases fails
    rfl

/-- A derivative fails because it does not exist, or with the error of the
function at one of the points. -/
theorem Stencil.eq_noDerivative_or_of_derivative
    {f : Float → Except DomainError Float} {x : Float}
    (fails : derivative f x = .error error) :
    error = .noDerivative ∨ ∃ point, f point = .error error := by
  have sampled {point : Float} (misses : sample f point = .error error) :
      f point = .error error := by
    unfold sample at misses
    split at misses
    · contradiction
    next isError =>
        split at misses <;> cases misses
        exact isError
  unfold derivative at fails
  rcases bind_eq_error_iff.mp fails with fails | ⟨_, -, fails⟩
  · exact .inr ⟨_, sampled fails⟩
  rcases bind_eq_error_iff.mp fails with fails | ⟨_, -, fails⟩
  · exact .inr ⟨_, sampled fails⟩
  rcases bind_eq_error_iff.mp fails with fails | ⟨_, -, fails⟩
  · exact .inr ⟨_, sampled fails⟩
  rcases bind_eq_error_iff.mp fails with fails | ⟨_, -, fails⟩
  · exact .inr ⟨_, sampled fails⟩
  rcases bind_eq_error_iff.mp fails with fails | ⟨_, -, fails⟩
  · exact .inr ⟨_, sampled fails⟩
  split at fails
  · contradiction
  · cases fails
    exact .inl rfl

end Arithmetic

/-- Where constants are resolved, an error about a name comes from a call. -/
theorem Expression.exists_call_of_isAboutName {environment : Environment}
    {answer : Text → Float → Nat → Except DomainError Float}
    {meaning? : Text → Option Meaning}
    (constants : ∀ name value, meaning? name = some (.constant value) →
      environment.constant? name = some value)
    {expression : Expression} (resolved : expression.IsResolved meaning?)
    {derivatives : Nat} {x : Float} {error : DomainError}
    (isAboutName : error.isAboutName = true)
    (fails : expression.evaluateWith environment answer derivatives x =
      .error error) :
    ∃ name ∈ expression.callees, ∃ operand derivatives,
      answer name operand derivatives = .error error := by
  induction expression generalizing derivatives x with
  | freeVariable | value => contradiction
  | constant name =>
      obtain ⟨value, isMeaning⟩ := resolved
      rw [evaluateWith, constants name value isMeaning] at fails
      contradiction
  | binary operator left right leftIH rightIH =>
      rw [evaluateWith] at fails
      rcases bind_eq_error_iff.mp fails with fails | ⟨first, -, fails⟩
      · obtain ⟨name, isCallee, found⟩ := leftIH resolved.1 fails
        exact ⟨name, List.mem_append_left _ isCallee, found⟩
      rcases bind_eq_error_iff.mp fails with fails | ⟨second, -, fails⟩
      · obtain ⟨name, isCallee, found⟩ := rightIH resolved.2 fails
        exact ⟨name, List.mem_append_right _ isCallee, found⟩
      · simp [Operator.isAboutName_of_apply fails] at isAboutName
  | apply function argument ih =>
      rw [evaluateWith] at fails
      rcases bind_eq_error_iff.mp fails with fails | ⟨operand, -, fails⟩
      · exact ih resolved fails
      · simp [BuiltinFunction.isAboutName_of_apply fails] at isAboutName
  | call name argument ih =>
      rw [evaluateWith] at fails
      rcases bind_eq_error_iff.mp fails with fails | ⟨operand, -, fails⟩
      · obtain ⟨callee, isCallee, found⟩ := ih resolved.2 fails
        exact ⟨callee, List.mem_cons_of_mem _ isCallee, found⟩
      · exact ⟨name, List.mem_cons_self, operand, derivatives, fails⟩
  | derivative operand ih =>
      cases derivatives with
      | zero =>
          rw [evaluateWith] at fails
          cases fails
          contradiction
      | succ derivatives =>
          rw [evaluateWith] at fails
          rcases bind_eq_error_iff.mp fails with fails | ⟨slope, -, fails⟩
          · rcases Stencil.eq_noDerivative_or_of_derivative fails with
              rfl | ⟨point, fails⟩
            · contradiction
            · exact ih resolved fails
          · simp [isAboutName_of_requireFinite fails] at isAboutName

namespace Environment

variable {environment : Environment} {error : DomainError}

theorem IsGrounded.constant?_eq (grounded : environment.IsGrounded)
    (name : Text) (value : Float)
    (isConstant : environment.meaning? name = some (.constant value)) :
    environment.constant? name = some value := by
  rw [constant?_of_not_builtin (grounded.notBuiltin name _ isConstant),
    isConstant]
  rfl

theorem IsGrounded.body?_eq (grounded : environment.IsGrounded)
    {name : Text} {body : Expression}
    (isFunction : environment.meaning? name = some (.function body)) :
    environment.body? name = some body := by
  rw [body?_of_not_builtin (grounded.notBuiltin name _ isFunction), isFunction]
  rfl

/-- A call goes wrong about a name only if it runs out of calls before the ranks
come to an end. -/
theorem IsGrounded.lt_rank_of_call (grounded : environment.IsGrounded)
    {rank : Text → Nat} (isRanked : environment.IsRankedBy rank)
    (isAboutName : error.isAboutName = true) {calls : Nat} {name : Text}
    {body : Expression}
    (isFunction : environment.meaning? name = some (.function body))
    {operand : Float} {derivatives : Nat}
    (fails : environment.call calls name operand derivatives =
      .error error) :
    error = .recursionLimit environment.limits.callDepth ∧
      calls < rank name := by
  induction calls generalizing name body operand derivatives with
  | zero =>
      rw [call_eq, grounded.body?_eq isFunction] at fails
      cases fails
      exact ⟨rfl, isRanked.positive name body isFunction⟩
  | succ calls ih =>
      rw [call_eq, grounded.body?_eq isFunction] at fails
      rcases bind_eq_error_iff.mp fails with fails | ⟨result, -, fails⟩
      · have resolved := grounded.resolved name body isFunction
        obtain ⟨callee, isCallee, operand, derivatives, fails⟩ :=
          Expression.exists_call_of_isAboutName grounded.constant?_eq resolved
            isAboutName fails
        obtain ⟨inner, isInner⟩ := resolved.exists_of_mem_callees isCallee
        obtain ⟨isLimit, bound⟩ := ih isInner fails
        have lower := isRanked.descends name body isFunction callee isCallee
        exact ⟨isLimit, by omega⟩
      · simp [isAboutName_of_requireFinite fails] at isAboutName

/-- An evaluation goes wrong about a name only if there are more functions than
calls that may be nested. -/
theorem IsGrounded.lt_functionCount_of_evaluate
    (grounded : environment.IsGrounded) {expression : Expression}
    (resolved : expression.IsResolved environment.meaning?)
    (isAboutName : error.isAboutName = true) {x : Float}
    (fails : environment.evaluate expression x = .error error) :
    error = .recursionLimit environment.limits.callDepth ∧
      environment.limits.callDepth < environment.functionCount := by
  obtain ⟨rank, isRanked⟩ := grounded.ranked
  obtain ⟨callee, isCallee, operand, derivatives, fails⟩ :=
    Expression.exists_call_of_isAboutName grounded.constant?_eq resolved
      isAboutName fails
  obtain ⟨body, isFunction⟩ := resolved.exists_of_mem_callees isCallee
  obtain ⟨isLimit, bound⟩ :=
    grounded.lt_rank_of_call isRanked isAboutName isFunction fails
  exact ⟨isLimit, bound.trans_le (isRanked.bounded callee)⟩

/-- Without removals and without formulas from elsewhere, definitions stay
closed and free of circles.  No evaluation of a function that was defined or
compiled then misses a name, and none runs out of calls as long as there are no
more functions than calls that may be nested. -/
theorem isGrounded_performAll (limits : Limits) (operations : List Operation)
    (defining : ∀ operation ∈ operations, operation.isDefining = true) :
    let environment := (empty limits).performAll operations
    (∀ name formula,
        environment.userDefinition? name = some (.function formula) →
          formula.expression.IsResolved environment.meaning?) ∧
      (∀ name, ¬ Relation.TransGen environment.CallsInto name name) ∧
      ∀ formula : Formula,
        ((∃ name, environment.userDefinition? name =
            some (.function formula)) ∨
          ∃ source, environment.compile source = .ok formula) →
        ∀ x,
          (∀ name, environment.evaluate formula.expression x ≠
            .error (.undefined name)) ∧
          (environment.functionCount ≤ environment.limits.callDepth →
            ∀ depth, environment.evaluate formula.expression x ≠
              .error (.recursionLimit depth)) := by
  intro environment
  have grounded : environment.IsGrounded :=
    (isGrounded_empty limits).performAll defining
  have resolved (name : Text) (formula : Formula)
      (isFunction :
        environment.userDefinition? name = some (.function formula)) :
      formula.expression.IsResolved environment.meaning? := by
    apply grounded.resolved name
    rw [meaning?, isFunction]
    rfl
  refine ⟨resolved, grounded.not_transGen, fun formula isKnown x => ?_⟩
  have isResolved : formula.expression.IsResolved environment.meaning? := by
    rcases isKnown with ⟨name, isFunction⟩ | ⟨source, compiles⟩
    · exact resolved name formula isFunction
    · exact isResolved_compile compiles
  constructor
  · intro name fails
    obtain ⟨isLimit, -⟩ :=
      grounded.lt_functionCount_of_evaluate isResolved rfl fails
    contradiction
  · intro enough depth fails
    obtain ⟨-, tooFew⟩ :=
      grounded.lt_functionCount_of_evaluate isResolved rfl fails
    omega

/-- The second definition would call itself and is refused, and the last one
takes the name that was moved away from the first one. -/
theorem isGrounded_performAll_chain :
    let operations : List Operation :=
      [.define ['f'] "x + 1".toList, .define ['g'] "g(x)".toList,
        .processDefinition "h = f(x)^2".toList, .rename ['f'] ['k'],
        .processDefinition "f = h(x) - k(x)".toList]
    let environment := (empty {}).performAll operations
    (∀ operation ∈ operations, operation.isDefining = true) ∧
      ∃ formula,
        environment.userDefinition? ['f'] = some (.function formula) ∧
          environment.functionCount ≤ environment.limits.callDepth ∧
            ∀ x,
              (∀ name, environment.evaluate formula.expression x ≠
                .error (.undefined name)) ∧
              ∀ depth, environment.evaluate formula.expression x ≠
                .error (.recursionLimit depth) := by
  intro operations environment
  have defining : ∀ operation ∈ operations,
      operation.isDefining = true := by
    decide
  have isFunction : (environment.userDefinition? ['f']).any
      UserDefinition.isFunction = true := by
    decide +kernel
  have enough :
      environment.functionCount ≤ environment.limits.callDepth := by
    decide +kernel
  obtain ⟨definition, isDefinition, isFunction⟩ :=
    (Option.any_eq_true ..).mp isFunction
  cases definition with
  | constant value source => contradiction
  | function formula =>
      obtain ⟨-, -, evaluates⟩ := isGrounded_performAll {} operations defining
      have known := evaluates formula (.inl ⟨['f'], isDefinition⟩)
      exact ⟨defining, formula, isDefinition, enough,
        fun x => ⟨(known x).1, (known x).2 enough⟩⟩

end Environment
end GraphingCalculator
