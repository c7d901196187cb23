import GraphingCalculator.Proofs.Environment.Generations
import GraphingCalculator.Proofs.Environment.Grounding
import GraphingCalculator.Proofs.Environment.Locality

/-!
# Definitions that change places

A definition is checked, compiled and evaluated in an environment that may hold
another definition already.  It does not notice that one if its source does not
mention it: the source is read alike, and since nothing in a grounded
environment refers to a name that is still free, the evaluation does not come
across it either.  So two definitions that do not mention each other can be
given in either order.
-/

namespace GraphingCalculator

theorem Expression.IsResolved.meaning?_ne_none
    {meaning? : Text → Option Meaning} {expression : Expression}
    (resolved : expression.IsResolved meaning?) {name : Text}
    (refers : expression.references name = true) : meaning? name ≠ none := by
  induction expression with
  | freeVariable | value => contradiction
  | constant other =>
      obtain ⟨value, isMeaning⟩ := resolved
      rw [references, decide_eq_true_eq] at refers
      simp [← refers, isMeaning]
  | binary operator left right leftIH rightIH =>
      rw [references, Bool.or_eq_true] at refers
      exact refers.elim (leftIH resolved.1) (rightIH resolved.2)
  | apply function argument ih => exact ih resolved refers
  | call other argument ih =>
      obtain ⟨⟨body, isMeaning⟩, resolved⟩ := resolved
      rw [references, Bool.or_eq_true, decide_eq_true_eq] at refers
      rcases refers with rfl | refers
      · simp [isMeaning]
      · exact ih resolved refers
  | derivative operand ih => exact ih resolved refers

namespace Environment

variable {environment : Environment} {name other source : Text}
variable {definition : UserDefinition}

/-- What a source defines under a name. -/
def definitionFrom (environment : Environment) (name source : Text) :
    Except DefinitionError UserDefinition := do
  environment.checkAvailable name
  let formula ← (environment.compile source).mapError .invalidExpression
  environment.definitionOf formula

/-- The name is checked once more when the formula is registered, and nothing
has changed in between. -/
theorem define_eq (environment : Environment) (name source : Text) :
    environment.define name source =
      (environment.definitionFrom name source).map fun definition =>
        (definition, environment.insert name definition) := by
  rw [define, definitionFrom]
  cases available : environment.checkAvailable name with
  | error error => rfl
  | ok _ =>
      rw [ok_bind, ok_bind]
      cases environment.compile source with
      | error error => rfl
      | ok formula => exact register_of_available available formula

theorem free_of_definitionFrom
    (gives : environment.definitionFrom name source = .ok definition) :
    environment.userDefinition? name = none := by
  obtain ⟨available, -⟩ := check_bind_eq_ok_iff.mp gives
  exact (checkAvailable_eq_ok_iff.mp available).2

/-- In a grounded environment everything that is reached from a definition is
defined. -/
theorem IsGrounded.meaning?_ne_none (grounded : environment.IsGrounded)
    {target : Text} (reaches : environment.Reaches name target)
    (isDefined : environment.meaning? name ≠ none) :
    environment.meaning? target ≠ none := by
  induction reaches with
  | self => exact isDefined
  | through isFunction refers _ ih =>
      exact ih ((grounded.resolved _ _ isFunction).meaning?_ne_none refers)

section Insert

theorem checkAvailable_insert_of_ne (differs : other ≠ name)
    (environment : Environment) (definition : UserDefinition) :
    (environment.insert name definition).checkAvailable other =
      environment.checkAvailable other := by
  rw [checkAvailable, checkAvailable, definition?_insert_of_ne differs]

theorem compile_insert_of_not_mentions (apart : mentions source name = false)
    (environment : Environment) (definition : UserDefinition) :
    (environment.insert name definition).compile source =
      environment.compile source := by
  refine compile_congr (limits_insert ..) fun mentioned isMentioned => ?_
  have differs : mentioned ≠ name := by
    rintro rfl
    rw [apart] at isMentioned
    contradiction
  rw [classify, classify, definition?_insert_of_ne differs]

/-- A formula that was compiled in a grounded environment does not come across a
definition under a name that was free. -/
theorem IsGrounded.definitionOf_insert (grounded : environment.IsGrounded)
    (free : environment.userDefinition? name = none) {formula : Formula}
    (compiles : environment.compile source = .ok formula)
    (definition : UserDefinition) :
    (environment.insert name definition).definitionOf formula =
      environment.definitionOf formula := by
  refine (definitionOf_congr (limits_insert ..).symm
    fun first refers target reaches => ?_).symm
  have isDefined : environment.meaning? target ≠ none :=
    grounded.meaning?_ne_none reaches
      ((isResolved_compile compiles).meaning?_ne_none refers)
  rw [meaning?_insert, if_neg]
  rintro rfl
  rw [meaning?, free] at isDefined
  contradiction

/-- A definition does not notice another one that its source does not
mention. -/
theorem IsGrounded.definitionFrom_insert (grounded : environment.IsGrounded)
    (free : environment.userDefinition? name = none) (differs : other ≠ name)
    (apart : mentions source name = false) (definition : UserDefinition) :
    (environment.insert name definition).definitionFrom other source =
      environment.definitionFrom other source := by
  rw [definitionFrom, definitionFrom, checkAvailable_insert_of_ne differs,
    compile_insert_of_not_mentions apart]
  cases compiles : environment.compile source with
  | error error => rfl
  | ok formula =>
      rw [Except.mapError, ok_bind,
        grounded.definitionOf_insert free compiles]
      rfl

end Insert

/-- The operations that give a name to a source. -/
inductive Operation.Gives : Operation → Text → Text → Prop
  | directly (name source : Text) : Gives (.define name source) name source
  | inText {text : Text} {parts : SplitDefinition}
      (splits : SplitDefinition.ofText text = .ok parts) :
      Gives (.processDefinition text) parts.name parts.expression

section Gives

variable {operation : Operation} (gives : operation.Gives name source)

include gives

/-- An operation is refused if its source defines nothing. -/
theorem Operation.Gives.isRefused_iff (environment : Environment) :
    operation.IsRefused environment ↔
      ∃ error, environment.definitionFrom name source = .error error := by
  cases gives with
  | directly name source =>
      rw [IsRefused, define_eq]
      cases environment.definitionFrom name source with
      | error error => simp [Except.map]
      | ok definition => simp [Except.map]
  | @inText text parts splits =>
      rw [IsRefused, Environment.processDefinition, splits, ok_bind, define_eq]
      cases environment.definitionFrom parts.name parts.expression with
      | error error => simp [Except.map, Except.mapError]
      | ok definition => simp [Except.map, Except.mapError, pure, Except.pure]

/-- What a source defines is inserted. -/
theorem Operation.Gives.perform_eq (environment : Environment) :
    environment.perform operation =
      match environment.definitionFrom name source with
      | .ok definition => environment.insert name definition
      | .error _ => environment := by
  cases gives with
  | directly name source =>
      rw [perform, define_eq]
      cases environment.definitionFrom name source <;> rfl
  | @inText text parts splits =>
      rw [perform, Environment.processDefinition, splits, ok_bind, define_eq]
      cases environment.definitionFrom parts.name parts.expression <;> rfl

/-- A definition has the same result after another one that its source does not
mention, whether that one was refused or not. -/
theorem IsGrounded.definitionFrom_perform (grounded : environment.IsGrounded)
    {further : Text} (differs : other ≠ name)
    (apart : mentions further name = false) :
    (environment.perform operation).definitionFrom other further =
      environment.definitionFrom other further := by
  rw [gives.perform_eq]
  cases isGiven : environment.definitionFrom name source with
  | error error => rfl
  | ok definition =>
      exact grounded.definitionFrom_insert (free_of_definitionFrom isGiven)
        differs apart definition

end Gives

/-- Two environments that hold the same definitions, in one order or another,
after the same number of changes. -/
structure IsReordered (first second : Environment) : Prop where
  limits : first.limits = second.limits
  entries : first.entries.Perm second.entries
  definitions : ∀ name, first.definition? name = second.definition? name
  constants : ∀ name, first.constant? name = second.constant? name
  generation : first.generation = second.generation

theorem IsReordered.refl (environment : Environment) :
    environment.IsReordered environment :=
  ⟨rfl, .refl _, fun _ => rfl, fun _ => rfl, rfl⟩

theorem isReordered_insert_insert (differs : name ≠ other)
    (environment : Environment) (definition further : UserDefinition) :
    ((environment.insert name definition).insert other further).IsReordered
      ((environment.insert other further).insert name definition) := by
  have sameDefinitions (asked : Text) :
      ((environment.insert name definition).insert other further).definition?
          asked =
        ((environment.insert other further).insert name definition).definition?
          asked := by
    refine definition?_congr ?_
    simp only [userDefinition?_insert]
    split
    next isOther =>
        rw [if_neg]
        exact fun isName => differs (isName.symm.trans isOther)
    next => rfl
  exact ⟨rfl, .swap .., sameDefinitions,
    fun asked => constant?_of_definition? (sameDefinitions asked), rfl⟩

/-- Two definitions of different names whose sources do not mention each other
change places: each one is refused or not regardless of the other, so that both
succeed in one order if they do in the other one; and the definitions, the
values of the constants and the number of changes are the same in the end. -/
theorem perform_comm (limits : Limits) {operations : List Operation}
    (defining : ∀ operation ∈ operations, operation.isDefining = true)
    {first second : Operation}
    {firstName firstSource secondName secondSource : Text}
    (givesFirst : first.Gives firstName firstSource)
    (givesSecond : second.Gives secondName secondSource)
    (differs : firstName ≠ secondName)
    (firstApart : ∀ position, (position, secondName) ∉ identifiers firstSource)
    (secondApart :
      ∀ position, (position, firstName) ∉ identifiers secondSource) :
    let environment := (empty limits).performAll operations
    let afterFirst := environment.perform first
    let afterSecond := environment.perform second
    (¬ first.IsRefused environment ∧ ¬ second.IsRefused afterFirst ↔
        ¬ second.IsRefused environment ∧ ¬ first.IsRefused afterSecond) ∧
      (second.IsRefused afterFirst ↔ second.IsRefused environment) ∧
      (first.IsRefused afterSecond ↔ first.IsRefused environment) ∧
      (afterFirst.perform second).IsReordered (afterSecond.perform first) := by
  intro environment afterFirst afterSecond
  have grounded : environment.IsGrounded :=
    (isGrounded_empty limits).performAll defining
  have notMentioned {source name : Text}
      (apart : ∀ position, (position, name) ∉ identifiers source) :
      mentions source name = false := by
    rw [← Bool.not_eq_true, ← exists_mem_identifiers_iff]
    exact fun ⟨position, member⟩ => apart position member
  have sameSecond : afterFirst.definitionFrom secondName secondSource =
      environment.definitionFrom secondName secondSource :=
    grounded.definitionFrom_perform givesFirst differs.symm
      (notMentioned secondApart)
  have sameFirst : afterSecond.definitionFrom firstName firstSource =
      environment.definitionFrom firstName firstSource :=
    grounded.definitionFrom_perform givesSecond differs
      (notMentioned firstApart)
  have refusesSecond :
      second.IsRefused afterFirst ↔ second.IsRefused environment := by
    rw [givesSecond.isRefused_iff, givesSecond.isRefused_iff, sameSecond]
  have refusesFirst :
      first.IsRefused afterSecond ↔ first.IsRefused environment := by
    rw [givesFirst.isRefused_iff, givesFirst.isRefused_iff, sameFirst]
  refine ⟨by rw [refusesSecond, refusesFirst, and_comm], refusesSecond,
    refusesFirst, ?_⟩
  rw [givesSecond.perform_eq, givesFirst.perform_eq, sameSecond, sameFirst]
  dsimp only [afterFirst, afterSecond]
  rw [givesFirst.perform_eq, givesSecond.perform_eq]
  cases environment.definitionFrom firstName firstSource with
  | error _ =>
      cases environment.definitionFrom secondName secondSource <;>
        exact .refl _
  | ok firstDefinition =>
      cases environment.definitionFrom secondName secondSource with
      | error _ => exact .refl _
      | ok secondDefinition => exact isReordered_insert_insert differs ..

/-- A constant that calls a renamed function, and a function that squares it. -/
theorem perform_comm_square :
    let operations : List Operation :=
      [.define ['f'] "x + 1".toList, .rename ['f'] ['k']]
    let environment := (empty {}).performAll operations
    let first : Operation := .define ['a'] "2 k(3)".toList
    let second : Operation := .processDefinition "g = k(x)^2".toList
    let onward := (environment.perform first).perform second
    let backward := (environment.perform second).perform first
    ¬ first.IsRefused environment ∧
      ¬ second.IsRefused (environment.perform first) ∧
      ¬ first.IsRefused (environment.perform second) ∧
      onward.IsReordered backward ∧ onward.constant? ['a'] = some 8 := by
  intro operations environment first second onward backward
  have splits : SplitDefinition.ofText "g = k(x)^2".toList =
      .ok ⟨['g'], 4, "k(x)^2".toList⟩ := by
    rfl
  have defining :
      ∀ operation ∈ operations, operation.isDefining = true := by
    decide
  obtain ⟨-, refusesSecond, refusesFirst, reordered⟩ :=
    perform_comm {} defining
      (.directly ['a'] "2 k(3)".toList) (.inText splits) (by decide)
      (fun position member => absurd
        (exists_mem_identifiers_iff.mp ⟨position, member⟩) (by decide +kernel))
      (fun position member => absurd
        (exists_mem_identifiers_iff.mp ⟨position, member⟩) (by decide +kernel))
  have acceptsFirst : ¬ first.IsRefused environment := by
    rintro ⟨error, refuses⟩
    have defines : (environment.define ['a']
        "2 k(3)".toList).toOption.isSome = true := by
      decide +kernel
    rw [refuses] at defines
    contradiction
  have acceptsSecond : ¬ second.IsRefused environment := by
    rintro ⟨error, refuses⟩
    have defines : (environment.processDefinition
        "g = k(x)^2".toList).toOption.isSome = true := by
      decide +kernel
    rw [refuses] at defines
    contradiction
  exact ⟨acceptsFirst, refusesSecond.not.mpr acceptsSecond,
    refusesFirst.not.mpr acceptsFirst, reordered, by decide +kernel⟩

end Environment
end GraphingCalculator
