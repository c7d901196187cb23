import GraphingCalculator.Proofs.Environment.Locality

/-!
# Constants do not vary

A definition whose expression does not read the free variable is evaluated once
and kept as a constant.  This is sound: such an expression has the same result
at every number, whatever the functions that it calls do with their arguments.
And the value survives the definition itself, although functions may have
referred to the new name before it was defined, since an evaluation that met
such a function on its way to a value did not get there.
-/

namespace GraphingCalculator

/-- Without the free variable the number plays no part, neither in the arguments
of calls nor in the errors. -/
theorem Expression.evaluateWith_of_not_usesVariable {environment : Environment}
    {answer : Text → Float → Nat → Except DomainError Float}
    {expression : Expression} (notUsed : expression.usesVariable = false)
    (derivatives : Nat) (x y : Float) :
    expression.evaluateWith environment answer derivatives x =
      expression.evaluateWith environment answer derivatives y := by
  induction expression with
  | freeVariable | derivative => contradiction
  | value | constant => rfl
  | binary operator left right leftIH rightIH =>
      rw [usesVariable, Bool.or_eq_false_iff] at notUsed
      rw [evaluateWith, evaluateWith, leftIH notUsed.1, rightIH notUsed.2]
  | apply function argument ih =>
      rw [evaluateWith, evaluateWith, ih notUsed]
  | call name argument ih =>
      rw [evaluateWith, evaluateWith, ih notUsed]

namespace Environment

variable {environment defined : Environment} {name source : Text}
variable {definition : UserDefinition} {formula : Formula}

theorem definition?_of_available
    (available : environment.checkAvailable name = .ok ()) :
    environment.definition? name = none := by
  obtain ⟨definable, free⟩ := checkAvailable_eq_ok_iff.mp available
  exact definition?_eq_none_iff.mpr ⟨definable.not_builtin, free⟩

/-- A definition under a free name takes no meaning away. -/
theorem follows_insert (free : environment.userDefinition? name = none)
    (definition : UserDefinition) (other : Text) :
    environment.Follows other other (environment.insert name definition) := by
  refine follows_of_meaning? (fun found meaning isMeaning => ?_) other
  rw [meaning?_insert, if_neg, isMeaning]
  rintro rfl
  rw [meaning?, free] at isMeaning
  contradiction

/-- A source that compiles before a definition under a free name does not
mention that name, and compiles to the same formula after it. -/
theorem compile_insert (available : environment.checkAvailable name = .ok ())
    (compiles : environment.compile source = .ok formula)
    (definition : UserDefinition) :
    (environment.insert name definition).compile source = .ok formula := by
  rw [← compiles]
  refine compile_congr (limits_insert ..) fun other mentioned => ?_
  have differs : other ≠ name := by
    rintro rfl
    refine classify_ne_none_of_compile compiles mentioned ?_
    rw [classify, definition?_of_available available]
  rw [classify, classify, definition?_insert_of_ne differs]

/-- An expression that does not read the free variable has one result, a value
or an error, at all numbers.  So a definition that is kept as a constant really
is one: its source has the kept value at every number, both before the
definition and after it. -/
theorem evaluate_of_constant (environment : Environment) :
    (∀ expression : Expression, expression.usesVariable = false →
      (∀ x y, environment.evaluate expression x =
        environment.evaluate expression y) ∧
        ∀ calls derivatives x y,
          environment.evaluateWithin calls derivatives expression x =
            environment.evaluateWithin calls derivatives expression y) ∧
      ∀ name source value written defined,
        environment.define name source =
          .ok (.constant value written, defined) →
        ∃ formula, environment.compile source = .ok formula ∧
          defined.compile source = .ok formula ∧
            formula.usesVariable = false ∧
              ∀ x, environment.evaluate formula.expression x = .ok value ∧
                defined.evaluate formula.expression x = .ok value := by
  have oneResult (expression : Expression)
      (notUsed : expression.usesVariable = false) (calls derivatives : Nat)
      (x y : Float) :
      environment.evaluateWithin calls derivatives expression x =
        environment.evaluateWithin calls derivatives expression y :=
    Expression.evaluateWith_of_not_usesVariable notUsed derivatives x y
  refine ⟨fun expression notUsed => ⟨oneResult expression notUsed _ _,
    oneResult expression notUsed⟩, ?_⟩
  intro name source value written defined defines
  obtain ⟨formula, compiles, registers⟩ := exists_compile_of_define defines
  obtain ⟨available, isDefinition, rfl⟩ := register_eq_ok_iff.mp registers
  have free := (checkAvailable_eq_ok_iff.mp available).2
  rcases definitionOf_eq_ok_iff.mp isDefinition with
    ⟨-, isFunction⟩ | ⟨notUsed, _, evaluates, isConstant⟩
  · contradiction
  cases isConstant
  refine ⟨formula, compiles, compile_insert available compiles _, notUsed,
    fun x => ?_⟩
  have before : environment.evaluate formula.expression x = .ok value :=
    (oneResult formula.expression notUsed _ _ x 0).trans evaluates
  refine ⟨before, ?_⟩
  have after := (follows_insert free (.constant value formula.source)
    name).evaluate_eq_ok (limits_insert ..).symm before
  rwa [Expression.rename_same] at after

/-- A constant is defined that a function refers to already, and it has its
value at every number. -/
theorem evaluate_of_constant_awaited :
    let environment : Environment :=
      ⟨{}, [(['g'], .function
        ⟨"x + r".toList, .binary .plus .freeVariable (.constant ['r'])⟩)], 0⟩
    ∃ value written defined formula,
      environment.define ['r'] "2*3".toList =
          .ok (.constant value written, defined) ∧
        environment.compile "2*3".toList = .ok formula ∧
          ∀ x, defined.evaluate formula.expression x = .ok value := by
  intro environment
  obtain ⟨⟨definition, defined⟩, defines⟩ :
      ∃ result, environment.define ['r'] "2*3".toList = .ok result :=
    exists_eq_ok_of_isSome (by decide +kernel)
  have isConstant : (environment.define ['r'] "2*3".toList).toOption.any
      (fun result => result.1.meaning.kind = .constant) = true := by
    decide +kernel
  cases definition with
  | function formula =>
      rw [defines] at isConstant
      contradiction
  | constant value written =>
      obtain ⟨formula, compiles, -, -, evaluates⟩ :=
        (evaluate_of_constant environment).2 _ _ _ _ _ defines
      exact ⟨value, written, defined, formula, defines, compiles,
        fun x => (evaluates x).2⟩

end Environment
end GraphingCalculator
