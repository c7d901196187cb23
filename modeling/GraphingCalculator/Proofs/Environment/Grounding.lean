import GraphingCalculator.Proofs.Compilation.Resolution
import GraphingCalculator.Proofs.Environment.Nesting
import GraphingCalculator.Proofs.Environment.Operation

/-!
# Definitions without circles

A source compiles only if all of its names are in use, and the name that it
defines is not.  So the functions that are defined one after the other refer to
earlier definitions only, and can be ranked: each one calls functions of lower
rank.  Renaming moves the ranks along.  As long as nothing is removed, and
nothing registered that was compiled elsewhere, no evaluation misses a name, and
none nests more calls than there are functions.
-/

namespace GraphingCalculator

namespace Expression

theorem callees_rename (old new : Text) (expression : Expression) :
    (expression.rename old new).callees =
      expression.callees.map (renameName old new) := by
  induction expression with
  | freeVariable | value | constant => rfl
  | binary operator left right leftIH rightIH =>
      rw [rename, callees, callees, leftIH, rightIH, List.map_append]
  | apply function argument ih => exact ih
  | call name argument ih =>
      rw [rename, callees, callees, ih, List.map_cons]
  | derivative operand ih => exact ih

theorem IsResolved.exists_of_mem_callees {meaning? : Text → Option Meaning}
    {expression : Expression} (resolved : expression.IsResolved meaning?)
    {name : Text} (isCallee : name ∈ expression.callees) :
    ∃ body, meaning? name = some (.function body) := by
  induction expression with
  | freeVariable | value | constant => contradiction
  | binary operator left right leftIH rightIH =>
      rcases List.mem_append.mp isCallee with isCallee | isCallee
      · exact leftIH resolved.1 isCallee
      · exact rightIH resolved.2 isCallee
  | apply function argument ih => exact ih resolved isCallee
  | call function argument ih =>
      rcases List.mem_cons.mp isCallee with rfl | isCallee
      · exact resolved.1
      · exact ih resolved.2 isCallee
  | derivative operand ih => exact ih resolved isCallee

end Expression

def UserDefinition.isFunction : UserDefinition → Bool
  | function _ => true
  | constant _ _ => false

@[simp]
theorem UserDefinition.isFunction_renameReferences (old new : Text)
    (definition : UserDefinition) :
    (definition.renameReferences old new).isFunction =
      definition.isFunction := by
  cases definition with
  | function formula =>
      rw [renameReferences]
      split <;> rfl
  | constant value source => rfl

namespace Environment

variable {environment renamed : Environment} {name old new : Text}

/-- The number of functions that the user defined. -/
def functionCount (environment : Environment) : Nat :=
  environment.entries.countP fun entry => entry.2.isFunction

theorem functionCount_insert (environment : Environment) (name : Text)
    (definition : UserDefinition) :
    (environment.insert name definition).functionCount =
      environment.functionCount + if definition.isFunction then 1 else 0 :=
  List.countP_cons

theorem functionCount_rename (differs : old ≠ new)
    (renames : environment.rename old new = .ok renamed) :
    renamed.functionCount = environment.functionCount := by
  obtain ⟨-, -, rfl⟩ := (rename_eq_ok_iff differs).mp renames
  simp [functionCount, List.countP_map, Function.comp_def]

theorem meaning?_rename (renames : environment.rename old new = .ok renamed)
    (differs : old ≠ new) (name : Text) :
    renamed.meaning? name =
      if name = old then none
      else (environment.meaning? (Expression.renameName new old name)).map
        (Meaning.rename old new) := by
  rw [meaning?, userDefinition?_rename renames differs]
  split
  next => rfl
  next =>
      rw [meaning?, Option.map_map, Option.map_map]
      congr 1
      funext definition
      exact UserDefinition.meaning_renameReferences old new definition

/-- The functions can be ranked so that each one calls functions of a lower
rank, and ranks count no further than there are functions. -/
structure IsRankedBy (environment : Environment) (rank : Text → Nat) :
    Prop where
  bounded : ∀ name, rank name ≤ environment.functionCount
  positive : ∀ name body, environment.meaning? name = some (.function body) →
    0 < rank name
  descends : ∀ caller body,
    environment.meaning? caller = some (.function body) →
      ∀ callee ∈ body.callees, rank callee < rank caller

/-- Every name in a function has a meaning, of the kind that it is taken for,
and the functions are ranked. -/
structure IsGrounded (environment : Environment) : Prop where
  notBuiltin : ∀ name meaning, environment.meaning? name = some meaning →
    builtinDefinition? name = none
  resolved : ∀ name body, environment.meaning? name = some (.function body) →
    body.IsResolved environment.meaning?
  ranked : ∃ rank, environment.IsRankedBy rank

theorem isGrounded_empty (limits : Limits) : (empty limits).IsGrounded := by
  have undefined (name : Text) : (empty limits).meaning? name = none := rfl
  refine ⟨?_, ?_, fun _ => 0, fun _ => Nat.zero_le _, ?_, ?_⟩
  all_goals simp [undefined]

/-- A new function that refers to definitions which are there already ranks
above all others. -/
theorem IsRankedBy.insert {rank : Text → Nat}
    (isRanked : environment.IsRankedBy rank) {definition : UserDefinition}
    (notCalled : ∀ caller body, environment.meaning? caller =
      some (.function body) → name ∉ body.callees)
    (notRecursive : ∀ body, definition.meaning = .function body →
      name ∉ body.callees) :
    (environment.insert name definition).IsRankedBy fun other =>
      if other = name then
        (environment.insert name definition).functionCount
      else rank other := by
  have count := functionCount_insert environment name definition
  have countFunction {body : Expression}
      (isFunction : definition.meaning = .function body) :
      (environment.insert name definition).functionCount =
        environment.functionCount + 1 := by
    cases definition with
    | function formula => exact count
    | constant value source => contradiction
  constructor
  · intro other
    have bound := isRanked.bounded other
    split <;> omega
  · intro other body isFunction
    rw [meaning?_insert] at isFunction
    split at isFunction
    next same =>
        rw [if_pos same, countFunction (Option.some.inj isFunction)]
        omega
    next differs =>
        rw [if_neg differs]
        exact isRanked.positive other body isFunction
  · intro caller body isFunction callee isCallee
    have bound := isRanked.bounded callee
    rw [meaning?_insert] at isFunction
    split at isFunction
    next same =>
        have isFunction := Option.some.inj isFunction
        have differs : callee ≠ name := by
          rintro rfl
          exact notRecursive body isFunction isCallee
        rw [if_neg differs, if_pos same, countFunction isFunction]
        omega
    next callerDiffers =>
        have differs : callee ≠ name := by
          rintro rfl
          exact notCalled caller body isFunction isCallee
        rw [if_neg differs, if_neg callerDiffers]
        exact isRanked.descends caller body isFunction callee isCallee

theorem IsGrounded.insert (grounded : environment.IsGrounded)
    {definition : UserDefinition} (notBuiltin : builtinDefinition? name = none)
    (isNew : environment.meaning? name = none)
    (resolved : ∀ body, definition.meaning = .function body →
      body.IsResolved environment.meaning?) :
    (environment.insert name definition).IsGrounded := by
  have keeps (other : Text) (meaning : Meaning)
      (isMeaning : environment.meaning? other = some meaning) :
      (environment.insert name definition).meaning? other = some meaning := by
    rw [meaning?_insert, if_neg, isMeaning]
    rintro rfl
    rw [isNew] at isMeaning
    contradiction
  have notCallee {body : Expression}
      (known : body.IsResolved environment.meaning?) :
      name ∉ body.callees := by
    intro isCallee
    obtain ⟨function, isFunction⟩ := known.exists_of_mem_callees isCallee
    rw [isNew] at isFunction
    contradiction
  obtain ⟨rank, isRanked⟩ := grounded.ranked
  refine ⟨?_, ?_, _, isRanked.insert
    (fun caller body isFunction =>
      notCallee (grounded.resolved caller body isFunction))
    (fun body isFunction => notCallee (resolved body isFunction))⟩
  · intro other meaning isMeaning
    rw [meaning?_insert] at isMeaning
    split at isMeaning
    next same => rw [same, notBuiltin]
    next => exact grounded.notBuiltin other meaning isMeaning
  · intro other body isFunction
    rw [meaning?_insert] at isFunction
    split at isFunction
    next => exact (resolved body (Option.some.inj isFunction)).mono keeps
    next => exact (grounded.resolved other body isFunction).mono keeps

/-- Renaming moves ranks along with their functions. -/
theorem IsRankedBy.rename {rank : Text → Nat}
    (isRanked : environment.IsRankedBy rank) (differs : old ≠ new)
    (renames : environment.rename old new = .ok renamed)
    (notCalled : ∀ caller body, environment.meaning? caller =
      some (.function body) → new ∉ body.callees) :
    renamed.IsRankedBy fun name =>
      rank (Expression.renameName new old name) := by
  have was {name : Text} {body : Expression}
      (isFunction : renamed.meaning? name = some (.function body)) :
      ∃ before, body = before.rename old new ∧
        environment.meaning? (Expression.renameName new old name) =
          some (.function before) := by
    rw [meaning?_rename renames differs] at isFunction
    split at isFunction
    next => contradiction
    next =>
        obtain ⟨meaning, isMeaning, isRenamed⟩ :=
          Option.map_eq_some_iff.mp isFunction
        cases meaning with
        | constant value => cases isRenamed
        | function before =>
            cases isRenamed
            exact ⟨before, rfl, isMeaning⟩
  constructor
  · intro name
    rw [functionCount_rename differs renames]
    exact isRanked.bounded _
  · intro name body isFunction
    obtain ⟨before, -, isBefore⟩ := was isFunction
    exact isRanked.positive _ before isBefore
  · intro caller body isFunction callee isCallee
    obtain ⟨before, rfl, isBefore⟩ := was isFunction
    rw [Expression.callees_rename] at isCallee
    obtain ⟨source, isSource, rfl⟩ := List.mem_map.mp isCallee
    have notNew : source ≠ new := by
      rintro rfl
      exact notCalled _ before isBefore isSource
    rw [Expression.renameName_renameName notNew]
    exact isRanked.descends _ before isBefore source isSource

theorem IsGrounded.rename (grounded : environment.IsGrounded)
    (renames : environment.rename old new = .ok renamed) :
    renamed.IsGrounded := by
  by_cases same : old = new
  · rw [eq_of_rename_same same renames]
    exact grounded
  obtain ⟨-, available, -⟩ := (rename_eq_ok_iff same).mp renames
  obtain ⟨definable, isFree⟩ := checkAvailable_eq_ok_iff.mp available
  have free : environment.meaning? new = none := by rw [meaning?, isFree]; rfl
  have notNew {name : Text} {meaning : Meaning}
      (isMeaning : environment.meaning? name = some meaning) : name ≠ new := by
    rintro rfl
    rw [free] at isMeaning
    contradiction
  have notCalled (caller : Text) (body : Expression)
      (isFunction : environment.meaning? caller = some (.function body)) :
      new ∉ body.callees := by
    intro isCallee
    obtain ⟨function, isFunction⟩ :=
      (grounded.resolved caller body isFunction).exists_of_mem_callees isCallee
    exact notNew isFunction rfl
  obtain ⟨rank, isRanked⟩ := grounded.ranked
  refine ⟨?_, ?_, _, isRanked.rename same renames notCalled⟩
  · intro name meaning isMeaning
    rw [meaning?_rename renames same] at isMeaning
    split at isMeaning
    next => contradiction
    next =>
        obtain ⟨before, isBefore, -⟩ := Option.map_eq_some_iff.mp isMeaning
        by_cases isNew : name = new
        · rw [isNew]
          exact definable.not_builtin
        · rw [Expression.renameName_of_ne isNew] at isBefore
          exact grounded.notBuiltin name before isBefore
  · intro name body isFunction
    rw [meaning?_rename renames same] at isFunction
    split at isFunction
    next => contradiction
    next =>
        obtain ⟨meaning, isMeaning, isRenamed⟩ :=
          Option.map_eq_some_iff.mp isFunction
        cases meaning with
        | constant value => cases isRenamed
        | function before =>
            cases isRenamed
            apply (grounded.resolved _ before isMeaning).rename
            intro target meaning isTarget
            rw [meaning?_renameName renames same (notNew isTarget), isTarget]
            rfl

theorem IsGrounded.define (grounded : environment.IsGrounded)
    {defined : Environment} {source : Text} {definition : UserDefinition}
    (defines : environment.define name source = .ok (definition, defined)) :
    defined.IsGrounded := by
  obtain ⟨formula, compiles, registers⟩ := exists_compile_of_define defines
  obtain ⟨available, isDefinition, rfl⟩ := register_eq_ok_iff.mp registers
  obtain ⟨definable, isFree⟩ := checkAvailable_eq_ok_iff.mp available
  apply grounded.insert definable.not_builtin
  · rw [meaning?, isFree]
    rfl
  · intro body isFunction
    rcases definitionOf_eq_ok_iff.mp isDefinition with
      ⟨-, rfl⟩ | ⟨-, value, -, rfl⟩
    · cases isFunction
      exact isResolved_compile compiles
    · contradiction

theorem IsGrounded.perform (grounded : environment.IsGrounded)
    {operation : Operation} (defining : operation.isDefining = true) :
    (environment.perform operation).IsGrounded := by
  cases operation with
  | register name formula | remove name => contradiction
  | define name source =>
      rw [Environment.perform]
      split
      next defines => exact grounded.define defines
      next => exact grounded
  | processDefinition text =>
      rw [Environment.perform]
      split
      next processes =>
          obtain ⟨source, definition, defines⟩ :=
            exists_define_of_processDefinition processes
          exact grounded.define defines
      next => exact grounded
  | rename old new =>
      rw [Environment.perform]
      split
      next renames => exact grounded.rename renames
      next => exact grounded

theorem IsGrounded.performAll (grounded : environment.IsGrounded)
    {operations : List Operation}
    (defining : ∀ operation ∈ operations, operation.isDefining = true) :
    (environment.performAll operations).IsGrounded := by
  induction operations generalizing environment with
  | nil => exact grounded
  | cons operation rest ih =>
      have further := grounded.perform (defining operation List.mem_cons_self)
      exact ih further fun other member =>
        defining other (List.mem_cons_of_mem _ member)

theorem IsGrounded.not_transGen (grounded : environment.IsGrounded)
    (name : Text) : ¬ Relation.TransGen environment.CallsInto name name := by
  obtain ⟨rank, isRanked⟩ := grounded.ranked
  have lower {caller callee : Text}
      (calls : environment.CallsInto caller callee) :
      rank callee < rank caller := by
    obtain ⟨body, isBody, isCallee⟩ := calls
    exact isRanked.descends caller body (meaning?_of_body? isBody) callee
      isCallee
  have descends {caller callee : Text}
      (calls : Relation.TransGen environment.CallsInto caller callee) :
      rank callee < rank caller := by
    induction calls with
    | single calls => exact lower calls
    | tail further calls ih => exact (lower calls).trans ih
  intro circle
  exact absurd (descends circle) (lt_irrefl _)

end Environment
end GraphingCalculator
