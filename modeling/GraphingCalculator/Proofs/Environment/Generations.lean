import GraphingCalculator.Proofs.Environment.Operation
import Mathlib.Algebra.Group.Nat.Defs
import Mathlib.Tactic.Push

/-!
# Generations

An operation on an environment is refused, and then it changes nothing, or it
changes the definitions, and then the change is counted.  Only a renaming to the
same name does neither.  So the generations of a run never decrease, and a
generation stands for one state of the definitions.
-/

namespace GraphingCalculator
namespace Environment

/-- Every change on the way from one environment to another is counted: where no
change was counted, there was none. -/
structure Precedes (earlier later : Environment) : Prop where
  generation_le : earlier.generation ≤ later.generation
  unchanged : later.generation = earlier.generation → later = earlier

namespace Precedes

variable {earlier middle later : Environment}

theorem refl (environment : Environment) : environment.Precedes environment :=
  ⟨Nat.le_refl _, fun _ => rfl⟩

theorem of_counted (counted : later.generation = earlier.generation + 1) :
    earlier.Precedes later :=
  ⟨by omega, by omega⟩

theorem trans (first : earlier.Precedes middle)
    (second : middle.Precedes later) : earlier.Precedes later where
  generation_le := Nat.le_trans first.generation_le second.generation_le
  unchanged same := by
    have notLess := first.generation_le
    have notMore := second.generation_le
    rw [second.unchanged (by omega), first.unchanged (by omega)]

/-- A counter of any width tells two environments apart, as long as there were
fewer changes between them than it can count. -/
theorem eq_of_mod_eq (precedes : earlier.Precedes later) {size : Nat}
    (few : later.generation < earlier.generation + size)
    (same : later.generation % size = earlier.generation % size) :
    later = earlier := by
  refine precedes.unchanged ?_
  have notLess := precedes.generation_le
  have divides : size ∣ later.generation - earlier.generation :=
    Nat.dvd_of_mod_eq_zero (Nat.sub_mod_eq_zero_of_mod_eq same)
  have none := Nat.eq_zero_of_dvd_of_lt divides (by omega)
  omega

end Precedes

section Steps

variable {environment changed : Environment} {name old new : Text}

theorem precedes_insert (environment : Environment) (name : Text)
    (definition : UserDefinition) :
    environment.Precedes (environment.insert name definition) :=
  .of_counted rfl

theorem generation_remove
    (isDefined : environment.userDefinition? name ≠ none) :
    (environment.remove name).2.generation = environment.generation + 1 := by
  obtain ⟨definition, found⟩ := Option.ne_none_iff_exists'.mp isDefined
  rw [remove, found]

theorem precedes_remove (environment : Environment) (name : Text) :
    environment.Precedes (environment.remove name).2 := by
  by_cases undefined : environment.userDefinition? name = none
  · rw [remove_of_undefined undefined]
    exact .refl environment
  · exact .of_counted (generation_remove undefined)

theorem generation_rename (differs : old ≠ new)
    (renames : environment.rename old new = .ok changed) :
    changed.generation = environment.generation + 1 := by
  obtain ⟨-, -, rfl⟩ := (rename_eq_ok_iff differs).mp renames
  rfl

theorem precedes_rename (renames : environment.rename old new = .ok changed) :
    environment.Precedes changed := by
  by_cases same : old = new
  · rw [eq_of_rename_same same renames]
    exact .refl environment
  · exact .of_counted (generation_rename same renames)

/-- An operation is refused if it fails, and a removal if there is nothing to
remove. -/
def Operation.IsRefused (environment : Environment) : Operation → Prop
  | .register name formula =>
      ∃ error, environment.register name formula = .error error
  | .define name source =>
      ∃ error, environment.define name source = .error error
  | .processDefinition text =>
      ∃ error, environment.processDefinition text = .error error
  | .remove name => (environment.remove name).1 = none
  | .rename old new => ∃ error, environment.rename old new = .error error

/-- The change that an operation makes is counted once, and it is seen in the
definition of some name. -/
structure Counts (before after : Environment) : Prop where
  generation : after.generation = before.generation + 1
  changes : ∃ name, after.userDefinition? name ≠ before.userDefinition? name

theorem undefined_of_remove_eq_none
    (nothing : (environment.remove name).1 = none) :
    environment.userDefinition? name = none := by
  unfold remove at nothing
  split at nothing
  next undefined => exact undefined
  next => contradiction

theorem perform_of_isRefused {operation : Operation}
    (refused : operation.IsRefused environment) :
    environment.perform operation = environment := by
  cases operation with
  | register | define | processDefinition | rename =>
      obtain ⟨error, refuses⟩ := refused
      rw [perform, refuses]
  | remove name =>
      exact remove_of_undefined (undefined_of_remove_eq_none refused)

theorem counts_of_register {formula : Formula} {definition : UserDefinition}
    (registers :
      environment.register name formula = .ok (definition, changed)) :
    environment.Counts changed := by
  obtain ⟨available, -, rfl⟩ := register_eq_ok_iff.mp registers
  refine ⟨rfl, name, ?_⟩
  rw [userDefinition?_insert, if_pos rfl,
    (checkAvailable_eq_ok_iff.mp available).2]
  simp

theorem counts_of_define {source : Text} {definition : UserDefinition}
    (defines : environment.define name source = .ok (definition, changed)) :
    environment.Counts changed := by
  obtain ⟨formula, registers⟩ := exists_register_of_define defines
  exact counts_of_register registers

theorem counts_of_remove (isDefined : environment.userDefinition? name ≠ none) :
    environment.Counts (environment.remove name).2 := by
  refine ⟨generation_remove isDefined, name, ?_⟩
  rw [userDefinition?_remove_self]
  exact isDefined.symm

theorem counts_of_rename (differs : old ≠ new)
    (renames : environment.rename old new = .ok changed) :
    environment.Counts changed := by
  refine ⟨generation_rename differs renames, old, ?_⟩
  rw [userDefinition?_rename renames differs, if_pos rfl]
  exact ((rename_eq_ok_iff differs).mp renames).1.symm

/-- What is not refused is counted, unless it is a renaming to the same name. -/
theorem counts_perform {operation : Operation}
    (accepted : ¬ operation.IsRefused environment)
    (notSame : ∀ name, operation ≠ .rename name name) :
    environment.Counts (environment.perform operation) := by
  cases operation with
  | register name formula =>
      cases registers : environment.register name formula with
      | error error => exact absurd ⟨error, registers⟩ accepted
      | ok result =>
          rw [perform, registers]
          exact counts_of_register registers
  | define name source =>
      cases defines : environment.define name source with
      | error error => exact absurd ⟨error, defines⟩ accepted
      | ok result =>
          rw [perform, defines]
          exact counts_of_define defines
  | processDefinition text =>
      cases processes : environment.processDefinition text with
      | error error => exact absurd ⟨error, processes⟩ accepted
      | ok result =>
          obtain ⟨source, definition, defines⟩ :=
            exists_define_of_processDefinition processes
          rw [perform, processes]
          exact counts_of_define defines
  | remove name =>
      refine counts_of_remove fun undefined => accepted ?_
      rw [Operation.IsRefused, remove, undefined]
  | rename old new =>
      have differs : old ≠ new := by
        rintro rfl
        exact notSame old rfl
      cases renames : environment.rename old new with
      | error error => exact absurd ⟨error, renames⟩ accepted
      | ok renamed =>
          rw [perform, renames]
          exact counts_of_rename differs renames

theorem perform_rename_same (environment : Environment) (name : Text) :
    environment.perform (.rename name name) = environment := by
  rw [perform]
  split
  next renamed renames => exact eq_of_rename_same rfl renames
  next => rfl

theorem precedes_perform (environment : Environment) (operation : Operation) :
    environment.Precedes (environment.perform operation) := by
  by_cases refused : operation.IsRefused environment
  · rw [perform_of_isRefused refused]
    exact .refl environment
  by_cases same : ∃ name, operation = .rename name name
  · obtain ⟨name, rfl⟩ := same
    rw [perform_rename_same]
    exact .refl environment
  · push Not at same
    exact .of_counted (counts_perform refused same).generation

theorem precedes_performAll (environment : Environment)
    (operations : List Operation) :
    environment.Precedes (environment.performAll operations) := by
  induction operations generalizing environment with
  | nil => exact .refl environment
  | cons operation rest ih =>
      exact (environment.precedes_perform operation).trans (ih _)

end Steps
end Environment
end GraphingCalculator
