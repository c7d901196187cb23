/-!
# Steps one after the other

A step that follows another one is reached when the first one succeeds.  The
lemmas here take a sequence of steps apart.
-/

namespace GraphingCalculator

variable {Error Other First Second : Type}

theorem bind_eq_ok_iff {first : Except Error First}
    {next : First → Except Error Second} {result : Second} :
    (first >>= next) = .ok result ↔
      ∃ value, first = .ok value ∧ next value = .ok result := by
  cases first with
  | error error => simp [bind, Except.bind]
  | ok value => simp [bind, Except.bind]

/-- Two steps fail when the first one does, or else the second one. -/
theorem bind_eq_error_iff {first : Except Error First}
    {next : First → Except Error Second} {error : Error} :
    (first >>= next) = .error error ↔
      first = .error error ∨
        ∃ value, first = .ok value ∧ next value = .error error := by
  cases first with
  | error error => simp [bind, Except.bind]
  | ok value => simp [bind, Except.bind]

/-- The same for a check, which succeeds without a value. -/
theorem check_bind_eq_ok_iff {check : Except Error Unit}
    {next : Unit → Except Error Second} {result : Second} :
    (check >>= next) = .ok result ↔ check = .ok () ∧ next () = .ok result := by
  rw [bind_eq_ok_iff]
  exact ⟨fun ⟨_, passes, reaches⟩ => ⟨passes, reaches⟩,
    fun ⟨passes, reaches⟩ => ⟨(), passes, reaches⟩⟩

theorem exists_eq_ok_of_isSome {result : Except Error First}
    (succeeds : result.toOption.isSome = true) :
    ∃ value, result = .ok value := by
  cases result with
  | ok value => exact ⟨value, rfl⟩
  | error error => contradiction

@[simp]
theorem ok_bind (value : First) (next : First → Except Error Second) :
    (Except.ok value >>= next) = next value :=
  rfl

@[simp]
theorem error_bind (error : Error) (next : First → Except Error Second) :
    ((Except.error error : Except Error First) >>= next) = .error error :=
  rfl

section Programs

variable {State : Type} {program : EStateM Error State First}
  {state after : State}

/-- A step that changes a state is followed by the next one, unless it
fails. -/
theorem bind_of_ok {value : First} (ends : program state = .ok value after)
    (next : First → EStateM Error State Second) :
    (program >>= next) state = next value after := by
  change EStateM.bind program next state = _
  rw [EStateM.bind, ends]

theorem bind_of_error {error : Error}
    (ends : program state = .error error after)
    (next : First → EStateM Error State Second) :
    (program >>= next) state = .error error after := by
  change EStateM.bind program next state = _
  rw [EStateM.bind, ends]

theorem get_bind (next : State → EStateM Error State Second) (state : State) :
    (get >>= next) state = next state state :=
  rfl

theorem modify_bind (write : State → State)
    (next : PUnit → EStateM Error State Second) (state : State) :
    (modify write >>= next) state = next ⟨⟩ (write state) :=
  rfl

end Programs

section Translation

variable (translate : Error → Other)

/-- A translation of errors goes through both steps of a sequence. -/
theorem mapError_bind (first : Except Error First)
    (next : First → Except Error Second) :
    (first >>= next).mapError translate =
      first.mapError translate >>= fun value =>
        (next value).mapError translate := by
  cases first <;> rfl

theorem mapError_mapError {Further : Type} (further : Other → Further)
    (result : Except Error First) :
    (result.mapError translate).mapError further =
      result.mapError (further ∘ translate) := by
  cases result <;> rfl

theorem mapError_eq_error_iff {result : Except Error First} {error : Other} :
    result.mapError translate = .error error ↔
      ∃ origin, result = .error origin ∧ translate origin = error := by
  constructor
  · intro fails
    cases result with
    | error origin => exact ⟨origin, rfl, Except.error.inj fails⟩
    | ok value => contradiction
  · rintro ⟨origin, rfl, rfl⟩
    rfl

end Translation
end GraphingCalculator
