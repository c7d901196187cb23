import GraphingCalculator.Proofs.Environment.Generations

/-!
# Changes in place

A program that changes a state in place writes it step by step, and what is
written stays written when a later step fails.  A program whose checks all come
before its writes is atomic: it writes everything, or nothing at all.  This file
writes the operations on an environment as such programs, the counting of a
change and the change of the entries as two steps, and proves that they are
atomic.
-/

namespace GraphingCalculator

/-- A program that changes a state in place. -/
abbrev InPlace (State Value : Type) := EStateM DefinitionError State Value

namespace InPlace

variable {State Value Result : Type}

/-- The state in which a program ends or fails. -/
def finalState : EStateM.Result DefinitionError State Value → State
  | .ok _ state => state
  | .error _ state => state

/-- Read from the state, or fail. -/
def examine (read : State → Except DefinitionError Value) :
    InPlace State Value := fun state =>
  match read state with
  | .ok value => .ok value state
  | .error error => .error error state

/-- Change the state as a whole, or fail. -/
def atomically (change : State → Except DefinitionError (Value × State)) :
    InPlace State Value := fun state =>
  match change state with
  | .ok (value, changed) => .ok value changed
  | .error error => .error error state

/-- A check can be made before an atomic change, and the change stays
atomic. -/
theorem examine_bind_atomically
    (read : State → Except DefinitionError Value)
    (change : Value → State → Except DefinitionError (Result × State)) :
    (examine read >>= fun value => atomically (change value)) =
      atomically fun state =>
        read state >>= fun value => change value state := by
  funext state
  change EStateM.bind (examine read) _ state = _
  unfold EStateM.bind examine atomically
  dsimp only
  cases read state with
  | ok value => rfl
  | error error => rfl

/-- Writes alone are atomic. -/
theorem modify_bind_modify (first second : State → State) (value : Value) :
    (do modify first; modify second; return value : InPlace State Value) =
      atomically fun state => .ok (value, second (first state)) :=
  rfl

theorem adaptExcept_atomically (change :
      State → Except DefinitionError (Value × State))
    (adapt : DefinitionError → DefinitionError) :
    EStateM.adaptExcept adapt (atomically change) =
      atomically fun state => (change state).mapError adapt := by
  funext state
  unfold EStateM.adaptExcept atomically
  dsimp only
  cases change state with
  | ok result => rfl
  | error error => rfl

/-- Writes can be made after an atomic change: they do not fail. -/
theorem atomically_bind (change :
      State → Except DefinitionError (Value × State))
    {next : Value → InPlace State Result} {result : Result}
    {write : State → State}
    (writes : ∀ value state, next value state = .ok result (write state)) :
    (atomically change >>= next) = atomically fun state => do
      let (_, changed) ← change state
      return (result, write changed) := by
  funext state
  change EStateM.bind (atomically change) _ state = _
  unfold EStateM.bind atomically
  dsimp only
  cases change state with
  | ok outcome => exact writes outcome.1 outcome.2
  | error error => rfl

theorem atomically_bind_pure (change :
      State → Except DefinitionError (Value × State)) (result : Result) :
    (do let _ ← atomically change; return result : InPlace State Result) =
      atomically fun state => do
        let (_, changed) ← change state
        return (result, changed) :=
  atomically_bind change fun _ _ => rfl

theorem atomically_bind_modify (change :
      State → Except DefinitionError (Value × State))
    (first second : State → State) :
    (do let _ ← atomically change; modify first; modify second
        : InPlace State Unit) =
      atomically fun state => do
        let (_, changed) ← change state
        return ((), second (first changed)) :=
  atomically_bind change fun _ _ => rfl

/-- Do a program, and return nothing. -/
def quietly (program : InPlace State Value) : InPlace State Unit := do
  let _ ← program
  return ()

theorem quietly_atomically (change :
      State → Except DefinitionError (Value × State)) :
    quietly (atomically change) = atomically fun state => do
      let (_, changed) ← change state
      return ((), changed) :=
  atomically_bind_pure change ()

@[simp]
theorem finalState_atomically
    (change : State → Except DefinitionError (Value × State)) (state : State) :
    finalState (atomically change state) =
      match change state with
      | .ok (_, changed) => changed
      | .error _ => state := by
  unfold atomically
  cases change state with
  | ok result => rfl
  | error error => rfl

/-- An atomic change that fails has written nothing. -/
theorem atomically_eq_error_iff
    {change : State → Except DefinitionError (Value × State)}
    {state after : State} {error : DefinitionError} :
    atomically change state = .error error after ↔
      change state = .error error ∧ after = state := by
  unfold atomically
  cases change state with
  | ok result => simp
  | error error => simp [eq_comm]

end InPlace

open InPlace

namespace Environment

/-- Count a change of the entries. -/
def countChange (environment : Environment) : Environment :=
  { environment with generation := environment.generation + 1 }

/-- Add an entry, without counting it. -/
def putEntry (name : Text) (definition : UserDefinition)
    (environment : Environment) : Environment :=
  { environment with entries := (name, definition) :: environment.entries }

/-- Take the entries of a name away, without counting it. -/
def dropEntries (name : Text) (environment : Environment) : Environment :=
  { environment with
    entries := environment.entries.filter fun (other, _) => other ≠ name }

/-- Give the entries of `old` the name `new`, without counting it.  Mentions of
`old` stay. -/
def moveEntries (old new : Text) (environment : Environment) : Environment :=
  { environment with
    entries := environment.entries.map fun (name, definition) =>
      (Expression.renameName old new name, definition) }

/-- Rename the mentions of `old` in all entries, without counting it. -/
def renameMentions (old new : Text) (environment : Environment) : Environment :=
  { environment with
    entries := environment.entries.map fun (name, definition) =>
      (name, definition.renameReferences old new) }

/-- A name is checked, and what it will mean is found, before anything is
written. -/
def registerInPlace (name : Text) (formula : Formula) :
    InPlace Environment UserDefinition := do
  examine fun environment => environment.checkAvailable name
  let definition ← examine fun environment => environment.definitionOf formula
  modify countChange
  modify (putEntry name definition)
  return definition

theorem registerInPlace_eq (name : Text) (formula : Formula) :
    registerInPlace name formula =
      atomically fun environment => environment.register name formula := by
  unfold registerInPlace
  simp only [modify_bind_modify, examine_bind_atomically]
  rfl

/-- The name is checked twice, before the source is compiled and after. -/
def defineInPlace (name source : Text) :
    InPlace Environment UserDefinition := do
  examine fun environment => environment.checkAvailable name
  let formula ← examine fun environment =>
    (environment.compile source).mapError .invalidExpression
  registerInPlace name formula

theorem defineInPlace_eq (name source : Text) :
    defineInPlace name source =
      atomically fun environment => environment.define name source := by
  unfold defineInPlace
  simp only [registerInPlace_eq, examine_bind_atomically]
  rfl

def processDefinitionInPlace (text : Text) : InPlace Environment Text := do
  let parts ← examine fun _ => SplitDefinition.ofText text
  let _ ← EStateM.adaptExcept (DefinitionError.shiftExpression parts.offset)
    (defineInPlace parts.name parts.expression)
  return parts.name

theorem processDefinitionInPlace_eq (text : Text) :
    processDefinitionInPlace text =
      atomically fun environment => environment.processDefinition text := by
  unfold processDefinitionInPlace
  simp only [defineInPlace_eq, adaptExcept_atomically, atomically_bind_pure,
    examine_bind_atomically]
  rfl

def removeInPlace (name : Text) :
    InPlace Environment (Option UserDefinition) := do
  match (← get).userDefinition? name with
  | none => return none
  | some definition =>
      modify countChange
      modify (dropEntries name)
      return some definition

theorem removeInPlace_eq (name : Text) :
    removeInPlace name =
      atomically fun environment => .ok (environment.remove name) := by
  funext environment
  rw [removeInPlace, get_bind]
  unfold atomically remove
  dsimp only
  cases environment.userDefinition? name with
  | none => rfl
  | some definition => rfl

/-- The definition is moved first, and the mentions follow. -/
def renameInPlace (old new : Text) : InPlace Environment Unit := do
  match (← get).userDefinition? old with
  | none => throw (.notDefined old)
  | some _ =>
      if old = new then return ()
      else do
        examine fun environment => environment.checkAvailable new
        modify (moveEntries old new)
        modify (renameMentions old new)
        modify countChange

theorem rename_eq_of_defined {environment : Environment} {old new : Text}
    {definition : UserDefinition}
    (found : environment.userDefinition? old = some definition)
    (differs : old ≠ new) :
    environment.rename old new = do
      environment.checkAvailable new
      return countChange (renameMentions old new
        (moveEntries old new environment)) := by
  rw [rename, found]
  dsimp only
  rw [if_neg differs]
  simp [countChange, renameMentions, moveEntries, Function.comp_def]

theorem renameInPlace_eq (old new : Text) :
    renameInPlace old new =
      atomically fun environment => do
        let renamed ← environment.rename old new
        return ((), renamed) := by
  funext environment
  rw [renameInPlace, get_bind]
  cases found : environment.userDefinition? old with
  | none =>
      have refuses : environment.rename old new = .error (.notDefined old) := by
        rw [rename, found]
      rw [atomically, refuses]
      rfl
  | some definition =>
      by_cases same : old = new
      · have keeps : environment.rename old new = .ok environment := by
          rw [rename, found]
          exact if_pos same
        rw [atomically, keeps]
        dsimp only
        rw [if_pos same]
        rfl
      · dsimp only
        rw [if_neg same, atomically, rename_eq_of_defined found same]
        change EStateM.bind (examine _) _ environment = _
        unfold EStateM.bind examine
        dsimp only
        cases environment.checkAvailable new with
        | ok available => rfl
        | error error => rfl

/-- An operation as a program.  What it returns besides the environment is left
out. -/
def Operation.inPlace : Operation → InPlace Environment Unit
  | register name formula => quietly (registerInPlace name formula)
  | define name source => quietly (defineInPlace name source)
  | processDefinition text => quietly (processDefinitionInPlace text)
  | remove name => quietly (removeInPlace name)
  | rename old new => renameInPlace old new

/-- Operations are atomic, and fail only if they are refused. -/
theorem Operation.inPlace_eq (operation : Operation) :
    ∃ change : Environment → Except DefinitionError (Unit × Environment),
      operation.inPlace = atomically change ∧
        ∀ environment, match change environment with
          | .ok (_, changed) => environment.perform operation = changed
          | .error _ => operation.IsRefused environment := by
  cases operation with
  | register name formula =>
      refine ⟨_, by rw [inPlace, registerInPlace_eq, quietly_atomically],
        fun environment => ?_⟩
      rw [perform, IsRefused]
      cases environment.register name formula with
      | ok result => rfl
      | error error => exact ⟨error, rfl⟩
  | define name source =>
      refine ⟨_, by rw [inPlace, defineInPlace_eq, quietly_atomically],
        fun environment => ?_⟩
      rw [perform, IsRefused]
      cases environment.define name source with
      | ok result => rfl
      | error error => exact ⟨error, rfl⟩
  | processDefinition text =>
      refine ⟨_, by rw [inPlace, processDefinitionInPlace_eq,
        quietly_atomically], fun environment => ?_⟩
      rw [perform, IsRefused]
      cases environment.processDefinition text with
      | ok result => rfl
      | error error => exact ⟨error, rfl⟩
  | remove name =>
      exact ⟨_, by rw [inPlace, removeInPlace_eq, quietly_atomically],
        fun environment => rfl⟩
  | rename old new =>
      refine ⟨_, by rw [inPlace, renameInPlace_eq], fun environment => ?_⟩
      rw [perform, IsRefused]
      cases environment.rename old new with
      | ok renamed => rfl
      | error error => exact ⟨error, rfl⟩

/-- An operation that fails was refused, and has written nothing. -/
theorem eq_of_inPlace_eq_error {environment after : Environment}
    {operation : Operation} {error : DefinitionError}
    (fails : operation.inPlace environment = .error error after) :
    operation.IsRefused environment ∧ after = environment := by
  obtain ⟨change, isAtomic, refuses⟩ := operation.inPlace_eq
  rw [isAtomic, atomically_eq_error_iff] at fails
  have refused := refuses environment
  rw [fails.1] at refused
  exact ⟨refused, fails.2⟩

theorem finalState_inPlace (environment : Environment)
    (operation : Operation) :
    finalState (operation.inPlace environment) =
      environment.perform operation := by
  obtain ⟨change, isAtomic, performs⟩ := operation.inPlace_eq
  have performed := performs environment
  rw [isAtomic, finalState_atomically]
  cases changes : change environment with
  | ok result =>
      rw [changes] at performed
      exact performed.symm
  | error error =>
      rw [changes] at performed
      exact (perform_of_isRefused performed).symm

end Environment
end GraphingCalculator
