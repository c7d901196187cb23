import GraphingCalculator.Proofs.Sequence
import GraphingCalculator.Secant

/-!
# The secant recurrence

The abscissas of a search are the terms of a recurrence, each found from the two
before it.  Going through them in order, the search ends at the first one where
something happens: the function has no value, the value is small enough, or it
is too close to the value before.  If nothing happens at all, the search gives
up after its number of steps.
-/

namespace GraphingCalculator
namespace Secant

section Recurrence

variable (settings : Secant) (f : Float → Except DomainError Float)
  (guess : Float)

/-- The abscissas of the recurrence, as far as the function has values at the
ones before. -/
def abscissa? : Nat → Option Float
  | 0 => some guess
  | 1 => some (guess + settings.seedOffset)
  | k + 2 => do
      let x₀ ← abscissa? k
      let x₁ ← abscissa? (k + 1)
      let y₀ ← (f x₀).toOption
      let y₁ ← (f x₁).toOption
      return x₁ - y₁ * (x₁ - x₀) / (y₁ - y₀)

/-- The values of the function at the abscissas. -/
def ordinate? (k : Nat) : Option Float := do
  let x ← settings.abscissa? f guess k
  (f x).toOption

/-- Check whether a value is too close to the one before it, if there is one. -/
def isFlatAt (y : Float) : (k : Nat) → Bool
  | 0 => false
  | k + 1 => (settings.ordinate? f guess k).any fun before =>
      (y - before).abs < settings.flatGradient

/-- What ends a search at an abscissa, if it does not go on. -/
def event? (k : Nat) : Option (Except RootError Float) :=
  (settings.abscissa? f guess k).bind fun x =>
    match f x with
    | .error error => some (.error (.domain error))
    | .ok y =>
        if y.abs < settings.tolerance then some (.ok x)
        else if settings.isFlatAt f guess y k then some (.error .flatGradient)
        else none

end Recurrence

variable {settings : Secant} {f : Float → Except DomainError Float}
  {guess : Float} {k : Nat} {x y : Float}

theorem event?_of_error {error : DomainError}
    (isPoint : settings.abscissa? f guess k = some x)
    (fails : f x = .error error) :
    settings.event? f guess k = some (.error (.domain error)) := by
  rw [event?, isPoint, Option.bind_some, fails]

theorem event?_of_ok (isPoint : settings.abscissa? f guess k = some x)
    (isValue : f x = .ok y) :
    settings.event? f guess k =
      if y.abs < settings.tolerance then some (.ok x)
      else if settings.isFlatAt f guess y k then some (.error .flatGradient)
      else none := by
  rw [event?, isPoint, Option.bind_some, isValue]

/-- A search that goes on has a value. -/
theorem exists_value_of_event? (isPoint : settings.abscissa? f guess k = some x)
    (goesOn : settings.event? f guess k = none) : ∃ y, f x = .ok y := by
  cases isValue : f x with
  | ok y => exact ⟨y, rfl⟩
  | error error =>
      rw [event?_of_error isPoint isValue] at goesOn
      contradiction

/-- The recurrence goes on as long as the search does. -/
theorem exists_abscissa? (settings : Secant)
    (f : Float → Except DomainError Float) (guess : Float) (k : Nat)
    (goesOn : ∀ j < k, settings.event? f guess j = none) :
    ∃ x, settings.abscissa? f guess k = some x := by
  induction k using Nat.strongRecOn with
  | ind k ih =>
      match k with
      | 0 => exact ⟨guess, rfl⟩
      | 1 => exact ⟨_, rfl⟩
      | k + 2 =>
          obtain ⟨x₀, isFirst⟩ := ih k (by omega) fun j before =>
            goesOn j (by omega)
          obtain ⟨x₁, isSecond⟩ := ih (k + 1) (by omega) fun j before =>
            goesOn j (by omega)
          obtain ⟨y₀, isValue⟩ :=
            exists_value_of_event? isFirst (goesOn k (by omega))
          obtain ⟨y₁, isNextValue⟩ :=
            exists_value_of_event? isSecond (goesOn (k + 1) (by omega))
          rw [abscissa?, isFirst, isSecond]
          simp [isValue, isNextValue, Except.toOption]

/-- What a search holds before a step: an abscissa of the recurrence with the
value there, and the next abscissa. -/
structure Holds (settings : Secant) (f : Float → Except DomainError Float)
    (guess : Float) (k : Nat) (x₀ y₀ x₁ : Float) : Prop where
  point : settings.abscissa? f guess k = some x₀
  value : f x₀ = .ok y₀
  next : settings.abscissa? f guess (k + 1) = some x₁

variable {x₀ y₀ x₁ y₁ : Float}

theorem valueAt_of_ok (isValue : f x₁ = .ok y₁) : valueAt f x₁ = .ok y₁ := by
  rw [valueAt, isValue]
  rfl

theorem valueAt_of_error {error : DomainError} (fails : f x₁ = .error error) :
    valueAt f x₁ = .error (.domain error) := by
  rw [valueAt, fails]
  rfl

/-- A step of the search is one of the recurrence. -/
theorem Holds.step (holds : settings.Holds f guess k x₀ y₀ x₁)
    (isValue : f x₁ = .ok y₁) :
    settings.Holds f guess (k + 1) x₁ y₁ (nextAbscissa x₀ y₀ x₁ y₁) where
  point := holds.next
  value := isValue
  next := by
    rw [abscissa?, holds.point, holds.next]
    simp [holds.value, isValue, Except.toOption, nextAbscissa]

theorem Holds.isFlatAt_eq (holds : settings.Holds f guess k x₀ y₀ x₁)
    (y : Float) :
    settings.isFlatAt f guess y (k + 1) =
      decide ((y - y₀).abs < settings.flatGradient) := by
  have isBefore : settings.ordinate? f guess k = some y₀ := by
    rw [ordinate?, holds.point]
    simp [holds.value, Except.toOption]
  rw [isFlatAt, isBefore, Option.any_some]

/-- From where it stands, a search ends at the first event. -/
theorem Holds.search_eq (holds : settings.Holds f guess k x₀ y₀ x₁)
    (steps : Nat) :
    settings.search f steps x₀ y₀ x₁ =
      ((List.range' (k + 1) steps).findSome?
        (settings.event? f guess)).getD
          (.error (.noConvergence settings.maxIterations)) := by
  induction steps generalizing k x₀ y₀ x₁ with
  | zero => rfl
  | succ steps ih =>
      rw [search, List.range'_succ, List.findSome?_cons]
      cases isValue : f x₁ with
      | error error =>
          rw [valueAt_of_error isValue, event?_of_error holds.next isValue]
          rfl
      | ok y₁ =>
          rw [valueAt_of_ok isValue, ok_bind, event?_of_ok holds.next isValue,
            holds.isFlatAt_eq]
          by_cases small : y₁.abs < settings.tolerance
          · rw [if_pos small, if_pos small]
            rfl
          rw [if_neg small, if_neg small]
          by_cases flat : (y₁ - y₀).abs < settings.flatGradient
          · rw [if_pos flat, if_pos (decide_eq_true flat)]
            rfl
          · rw [if_neg flat, if_neg (by simpa using flat)]
            exact ih (holds.step isValue)

/-- A search ends at its first event, of which the last one can be at the number
of its steps. -/
theorem solve_eq (settings : Secant) (f : Float → Except DomainError Float)
    (guess : Float) :
    settings.solve f guess =
      ((List.range (settings.maxIterations + 1)).findSome?
        (settings.event? f guess)).getD
          (.error (.noConvergence settings.maxIterations)) := by
  have isFirst : settings.abscissa? f guess 0 = some guess := rfl
  rw [solve, List.range_eq_range', List.range'_succ, List.findSome?_cons]
  cases isValue : f guess with
  | error error =>
      rw [valueAt_of_error isValue, event?_of_error isFirst isValue]
      rfl
  | ok y =>
      rw [valueAt_of_ok isValue, ok_bind, event?_of_ok isFirst isValue,
        isFlatAt]
      by_cases small : y.abs < settings.tolerance
      · rw [if_pos small, if_pos small]
        rfl
      · have holds : settings.Holds f guess 0 guess y
            (guess + settings.seedOffset) := ⟨isFirst, isValue, rfl⟩
        rw [if_neg small, if_neg small]
        exact holds.search_eq settings.maxIterations

/-- A root is a number where the function is small enough. -/
theorem exists_small_of_solve (finds : settings.solve f guess = .ok x) :
    ∃ y, f x = .ok y ∧ y.abs < settings.tolerance := by
  rw [solve_eq] at finds
  obtain ⟨k, -, isEvent⟩ : ∃ k ∈ List.range (settings.maxIterations + 1),
      settings.event? f guess k = some (.ok x) := by
    cases found : (List.range (settings.maxIterations + 1)).findSome?
        (settings.event? f guess) with
    | none =>
        rw [found] at finds
        contradiction
    | some result =>
        rw [found, Option.getD_some] at finds
        exact List.exists_of_findSome?_eq_some (finds ▸ found)
  obtain ⟨point, isPoint, ends⟩ := Option.bind_eq_some_iff.mp isEvent
  cases isValue : f point with
  | error error =>
      rw [isValue] at ends
      cases ends
  | ok y =>
      rw [isValue] at ends
      dsimp only at ends
      split at ends
      next small =>
          cases ends
          exact ⟨y, isValue, small⟩
      · split at ends <;> cases ends

end Secant

namespace Environment

/-- At an intersection both formulas have values, and these are close. -/
theorem exists_close_of_intersection {environment : Environment}
    {first second : Formula} {guess x : Float}
    (finds : environment.intersection first second guess = .ok x) :
    ∃ firstValue secondValue,
      environment.evaluate first.expression x = .ok firstValue ∧
        environment.evaluate second.expression x = .ok secondValue ∧
          (firstValue - secondValue).abs < ({} : Secant).tolerance := by
  obtain ⟨y, isDifference, small⟩ := Secant.exists_small_of_solve finds
  obtain ⟨firstValue, isFirst, isDifference⟩ :=
    bind_eq_ok_iff.mp isDifference
  obtain ⟨secondValue, isSecond, isDifference⟩ :=
    bind_eq_ok_iff.mp isDifference
  cases isDifference
  exact ⟨firstValue, secondValue, isFirst, isSecond, small⟩

end Environment

/-- A search goes through the abscissas of the recurrence, and its result is the
first event at one of them.  The recurrence does not end before that.  At a root
the function has a small value, and at an intersection the two formulas have
values that are close. -/
theorem Secant.solve_eq_first_event (settings : Secant)
    (f : Float → Except DomainError Float) (guess : Float) :
    settings.solve f guess =
      ((List.range (settings.maxIterations + 1)).findSome?
        (settings.event? f guess)).getD
          (.error (.noConvergence settings.maxIterations)) ∧
    (∀ k, (∀ j < k, settings.event? f guess j = none) →
      ∃ x, settings.abscissa? f guess k = some x) ∧
    (∀ x, settings.solve f guess = .ok x →
      ∃ y, f x = .ok y ∧ y.abs < settings.tolerance) ∧
    ∀ (environment : Environment) (first second : Formula) (x : Float),
      environment.intersection first second guess = .ok x →
        ∃ firstValue secondValue,
          environment.evaluate first.expression x = .ok firstValue ∧
            environment.evaluate second.expression x = .ok secondValue ∧
              (firstValue - secondValue).abs < ({} : Secant).tolerance :=
  ⟨solve_eq settings f guess, exists_abscissa? settings f guess,
    fun _ => exists_small_of_solve,
    fun _ _ _ _ => Environment.exists_close_of_intersection⟩

/-- A search for the root of two. -/
theorem Secant.solve_eq_first_event_root :
    let f : Float → Except DomainError Float := fun x => .ok (x * x - 2)
    ∃ x, Secant.solve {} f 1 = .ok x ∧
      ∃ y, f x = .ok y ∧ y.abs < ({} : Secant).tolerance := by
  intro f
  have succeeds : (Secant.solve {} f 1).toOption.isSome = true := by
    decide +kernel
  obtain ⟨x, finds⟩ := exists_eq_ok_of_isSome succeeds
  exact ⟨x, finds, (solve_eq_first_event {} f 1).2.2.1 x finds⟩

end GraphingCalculator
