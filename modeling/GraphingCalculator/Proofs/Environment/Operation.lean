import GraphingCalculator.Proofs.Environment.Lookup

/-!
# Runs of an environment

An environment is changed by five operations.  An operation that is refused
leaves the environment as it is, so that every sequence of operations is a run.
Runs lead from reachable environments to reachable ones.
-/

namespace GraphingCalculator
namespace Environment

/-- What can be done to an environment. -/
inductive Operation
  | register (name : Text) (formula : Formula)
  | define (name source : Text)
  | processDefinition (text : Text)
  | remove (name : Text)
  | rename (old new : Text)
  deriving DecidableEq

/-- Check whether an operation takes no definition away, and adds none but those
that it compiles itself. -/
def Operation.isDefining : Operation → Bool
  | define _ _ | processDefinition _ | rename _ _ => true
  | register _ _ | remove _ => false

/-- The environment after an operation. -/
def perform (environment : Environment) : Operation → Environment
  | .register name formula =>
      match environment.register name formula with
      | .ok (_, defined) => defined
      | .error _ => environment
  | .define name source =>
      match environment.define name source with
      | .ok (_, defined) => defined
      | .error _ => environment
  | .processDefinition text =>
      match environment.processDefinition text with
      | .ok (_, defined) => defined
      | .error _ => environment
  | .remove name => (environment.remove name).2
  | .rename old new =>
      match environment.rename old new with
      | .ok renamed => renamed
      | .error _ => environment

/-- The environment after a sequence of operations. -/
def performAll (environment : Environment) (operations : List Operation) :
    Environment :=
  operations.foldl perform environment

variable {environment : Environment}

theorem IsReachable.perform (reachable : environment.IsReachable)
    (operation : Operation) : (environment.perform operation).IsReachable := by
  cases operation with
  | register name formula =>
      rw [Environment.perform]
      split
      next registers => exact reachable.register registers
      next => exact reachable
  | define name source =>
      rw [Environment.perform]
      split
      next defines => exact reachable.define defines
      next => exact reachable
  | processDefinition text =>
      rw [Environment.perform]
      split
      next processes => exact reachable.processDefinition processes
      next => exact reachable
  | remove name => exact reachable.remove name
  | rename old new =>
      rw [Environment.perform]
      split
      next renames => exact reachable.rename renames
      next => exact reachable

theorem IsReachable.performAll (reachable : environment.IsReachable)
    (operations : List Operation) :
    (environment.performAll operations).IsReachable := by
  induction operations generalizing environment with
  | nil => exact reachable
  | cons operation rest ih => exact ih (reachable.perform operation)

end Environment
end GraphingCalculator
