import GraphingCalculator.Environment.Editing
import GraphingCalculator.Proofs.Relabelling
import GraphingCalculator.Proofs.Sequence

/-!
# What an environment says after a change

Every change to an environment is described by the definitions that are found
in it afterwards.  A removal and an insertion touch a single name.  A renaming
moves one definition, and turns the references in all of them.  No sequence of
changes defines a name that is built in.
-/

namespace GraphingCalculator

/-- The names that a user can define: identifiers other than the free variable
that are not built in. -/
structure IsDefinable (name : Text) : Prop where
  identifier : isIdentifier name = true
  not_variable : name ≠ variableName
  not_builtin : Environment.builtinDefinition? name = none

namespace IsDefinable

variable {name : Text}

/-- The name of the derivative cannot be defined, since it is not an
identifier. -/
theorem ne_derivativeName (definable : IsDefinable name) :
    derivativeName ≠ name := by
  rintro rfl
  exact absurd definable.identifier (by decide)

theorem ne_functionName (definable : IsDefinable name)
    (function : BuiltinFunction) : function.name ≠ name := by
  rintro rfl
  have notBuiltin := definable.not_builtin
  cases function <;> contradiction

theorem ne_constantName (definable : IsDefinable name)
    (constant : BuiltinConstant) : constant.name ≠ name := by
  rintro rfl
  have notBuiltin := definable.not_builtin
  cases constant <;> contradiction

end IsDefinable

/-- A function refers to the names in its expression, and a constant to
nothing. -/
def UserDefinition.RefersTo (definition : UserDefinition) (name : Text) :
    Prop :=
  ∃ formula, definition = .function formula ∧ formula.references name = true

theorem UserDefinition.exists_refersTo_of_renameReferences
    {old new target : Text} {definition : UserDefinition}
    (refers : (definition.renameReferences old new).RefersTo target) :
    ∃ source, definition.RefersTo source ∧
      Expression.renameName old new source = target := by
  obtain ⟨formula, isFunction, refers⟩ := refers
  cases definition with
  | constant value source => cases isFunction
  | function before =>
      rw [renameReferences] at isFunction
      split at isFunction
      next =>
          cases isFunction
          obtain ⟨source, isSource, renamed⟩ :=
            Expression.references_rename_iff.mp refers
          exact ⟨source, ⟨before, rfl, isSource⟩, renamed⟩
      next notReferenced =>
          cases isFunction
          refine ⟨target, ⟨formula, rfl, refers⟩,
            Expression.renameName_of_ne ?_⟩
          rintro rfl
          exact notReferenced refers

/-- An environment without dangling references: its functions refer to names
only that are defined. -/
def Environment.IsClosed (environment : Environment) : Prop :=
  ∀ name definition, environment.userDefinition? name = some definition →
    ∀ target, definition.RefersTo target →
      environment.userDefinition? target ≠ none

namespace Environment

theorem definition?_of_builtin {name : Text} {definition : Definition}
    (builtin : builtinDefinition? name = some definition)
    (environment : Environment) :
    environment.definition? name = some definition := by
  simp [definition?, builtin]

theorem definition?_of_not_builtin {name : Text}
    (notBuiltin : builtinDefinition? name = none)
    (environment : Environment) :
    environment.definition? name =
      (environment.userDefinition? name).map .user := by
  simp [definition?, notBuiltin]

theorem definition?_eq_none_iff {environment : Environment} {name : Text} :
    environment.definition? name = none ↔
      builtinDefinition? name = none ∧
        environment.userDefinition? name = none := by
  cases builtin : builtinDefinition? name with
  | some definition => simp [definition?_of_builtin builtin]
  | none => simp [definition?_of_not_builtin builtin]

/-- Built-in definitions are the same everywhere, and so the definitions of the
user decide what a name means. -/
theorem definition?_congr {first second : Environment} {name : Text}
    (same : first.userDefinition? name = second.userDefinition? name) :
    first.definition? name = second.definition? name := by
  simp only [definition?, same]

theorem contains_eq_false_iff {environment : Environment} {name : Text} :
    environment.contains name = false ↔
      builtinDefinition? name = none ∧
        environment.userDefinition? name = none := by
  rw [contains, Option.isSome_eq_false_iff, Option.isNone_iff_eq_none,
    definition?_eq_none_iff]

theorem checkAvailable_eq_ok_iff {environment : Environment} {name : Text} :
    environment.checkAvailable name = .ok () ↔
      IsDefinable name ∧ environment.userDefinition? name = none := by
  unfold checkAvailable
  constructor
  · intro available
    split at available
    · contradiction
    split at available
    · contradiction
    split at available
    · contradiction
    next identifier notVariable =>
        split at available
        next undefined =>
            obtain ⟨notBuiltin, free⟩ := definition?_eq_none_iff.mp undefined
            exact ⟨⟨by simpa using identifier, notVariable, notBuiltin⟩, free⟩
        all_goals contradiction
  · rintro ⟨⟨identifier, notVariable, notBuiltin⟩, free⟩
    have nonempty : name.isEmpty = false := by
      simpa using ne_nil_of_isIdentifier identifier
    have undefined : environment.definition? name = none :=
      definition?_eq_none_iff.mpr ⟨notBuiltin, free⟩
    simp [nonempty, identifier, notVariable, undefined]

@[simp]
theorem limits_insert (environment : Environment) (name : Text)
    (definition : UserDefinition) :
    (environment.insert name definition).limits = environment.limits :=
  rfl

@[simp]
theorem limits_remove (environment : Environment) (name : Text) :
    (environment.remove name).2.limits = environment.limits := by
  unfold remove
  split <;> rfl

private theorem lookup_cons_eq (key : Text) (definition : UserDefinition)
    (rest : List (Text × UserDefinition)) (name : Text) :
    ((key, definition) :: rest).lookup name =
      if name = key then some definition else rest.lookup name := by
  by_cases same : name = key
  · simp [same]
  · have differs : (name == key) = false := by simp [same]
    simp [List.lookup_cons, differs, same]

theorem lookup_filter (keeps : Text → Bool)
    (entries : List (Text × UserDefinition)) (name : Text) :
    (entries.filter fun entry => keeps entry.1).lookup name =
      if keeps name then entries.lookup name else none := by
  induction entries with
  | nil => simp
  | cons entry rest ih =>
      obtain ⟨key, definition⟩ := entry
      cases kept : keeps key with
      | false =>
          by_cases same : name = key
          · simpa [same, kept] using ih
          · simpa [lookup_cons_eq, same, kept] using ih
      | true =>
          by_cases same : name = key
          · simp [same, kept]
          · simpa [lookup_cons_eq, same, kept] using ih

theorem userDefinition?_remove (environment : Environment)
    (name other : Text) :
    (environment.remove name).2.userDefinition? other =
      if other = name then none else environment.userDefinition? other := by
  unfold remove
  cases found : environment.userDefinition? name with
  | none =>
      by_cases same : other = name
      · simp [same, found]
      · simp [same]
  | some definition =>
      simpa [userDefinition?] using
        lookup_filter (fun key => key ≠ name) environment.entries other

@[simp]
theorem userDefinition?_remove_self (environment : Environment)
    (name : Text) :
    (environment.remove name).2.userDefinition? name = none := by
  simp [userDefinition?_remove]

theorem remove_of_undefined {environment : Environment} {name : Text}
    (undefined : environment.userDefinition? name = none) :
    (environment.remove name).2 = environment := by
  rw [remove, undefined]

theorem userDefinition?_remove_of_ne {name other : Text}
    (differs : other ≠ name) (environment : Environment) :
    (environment.remove name).2.userDefinition? other =
      environment.userDefinition? other := by
  simp [userDefinition?_remove, differs]

theorem register_eq_ok_iff {environment defined : Environment} {name : Text}
    {formula : Formula} {definition : UserDefinition} :
    environment.register name formula = .ok (definition, defined) ↔
      environment.checkAvailable name = .ok () ∧
        environment.definitionOf formula = .ok definition ∧
          defined = environment.insert name definition := by
  unfold register
  cases environment.checkAvailable name with
  | error error => simp [bind, Except.bind]
  | ok available =>
      cases environment.definitionOf formula with
      | error error => simp [bind, Except.bind]
      | ok found =>
          simp only [bind, Except.bind, pure, Except.pure, Except.ok.injEq,
            Prod.mk.injEq, true_and]
          constructor
          · rintro ⟨rfl, rfl⟩
            exact ⟨rfl, rfl⟩
          · rintro ⟨rfl, rfl⟩
            exact ⟨rfl, rfl⟩

/-- Where a name can be defined, a formula is registered under it as what it
defines. -/
theorem register_of_available {environment : Environment} {name : Text}
    (available : environment.checkAvailable name = .ok ())
    (formula : Formula) :
    environment.register name formula =
      (environment.definitionOf formula).map fun definition =>
        (definition, environment.insert name definition) := by
  rw [register, available, ok_bind]
  cases environment.definitionOf formula <;> rfl

/-- A function is defined by a formula that reads the free variable, and a
constant by any other one that has a value at zero. -/
theorem definitionOf_eq_ok_iff {environment : Environment} {formula : Formula}
    {definition : UserDefinition} :
    environment.definitionOf formula = .ok definition ↔
      (formula.usesVariable = true ∧ definition = .function formula) ∨
        (formula.usesVariable = false ∧
          ∃ value, environment.evaluate formula.expression 0 = .ok value ∧
            definition = .constant value formula.source) := by
  unfold definitionOf
  cases formula.usesVariable with
  | true => simp [eq_comm]
  | false =>
      cases environment.evaluate formula.expression 0 with
      | ok value => simp [eq_comm]
      | error error => simp

section Rename

variable {environment renamed : Environment} {old new : Text}

theorem rename_eq_ok_iff (differs : old ≠ new) :
    environment.rename old new = .ok renamed ↔
      environment.userDefinition? old ≠ none ∧
        environment.checkAvailable new = .ok () ∧
          renamed = { environment with
            entries := environment.entries.map fun (name, definition) =>
              (Expression.renameName old new name,
                definition.renameReferences old new)
            generation := environment.generation + 1 } := by
  unfold rename
  cases environment.userDefinition? old with
  | none => simp
  | some definition =>
      cases environment.checkAvailable new with
      | error error => simp [differs, bind, Except.bind]
      | ok available =>
          simp [differs, bind, Except.bind, pure, Except.pure, eq_comm]

private theorem lookup_map_rename {entries : List (Text × UserDefinition)}
    (free : entries.lookup new = none) (differs : old ≠ new) (name : Text) :
    (entries.map fun (key, definition) =>
        (Expression.renameName old new key,
          definition.renameReferences old new)).lookup name =
      if name = old then none
      else
        (entries.lookup (Expression.renameName new old name)).map
          (UserDefinition.renameReferences old new) := by
  induction entries with
  | nil => simp
  | cons entry rest ih =>
      obtain ⟨key, definition⟩ := entry
      rw [lookup_cons_eq] at free
      have keyDiffers : new ≠ key := by
        intro same
        simp [same] at free
      have restFree : rest.lookup new = none := by
        simpa [keyDiffers] using free
      simp only [List.map_cons, lookup_cons_eq, ih restFree]
      by_cases isOld : key = old
      · subst isOld
        by_cases isNew : name = new
        · simp [isNew, differs.symm]
        · by_cases same : name = key
          · simp [same, differs]
          · simp [Expression.renameName_of_ne isNew, isNew, same]
      · rw [Expression.renameName_of_ne isOld]
        by_cases isNew : name = new
        · have oldDiffers : old ≠ key := fun same => isOld same.symm
          simp [isNew, keyDiffers, oldDiffers, differs.symm]
        · rw [Expression.renameName_of_ne isNew]
          by_cases same : name = key
          · simp [same, isOld]
          · simp [same]

/-- After a renaming a name stands for what it stood for before, `new` for what
`old` stood for, and `old` for nothing. -/
theorem userDefinition?_rename
    (renames : environment.rename old new = .ok renamed)
    (differs : old ≠ new) (name : Text) :
    renamed.userDefinition? name =
      if name = old then none
      else
        (environment.userDefinition? (Expression.renameName new old name)).map
          (UserDefinition.renameReferences old new) := by
  obtain ⟨-, available, rfl⟩ := (rename_eq_ok_iff differs).mp renames
  exact lookup_map_rename (checkAvailable_eq_ok_iff.mp available).2 differs name

theorem userDefinition?_renameName
    (renames : environment.rename old new = .ok renamed)
    (differs : old ≠ new) {name : Text} (notNew : name ≠ new) :
    renamed.userDefinition? (Expression.renameName old new name) =
      (environment.userDefinition? name).map
        (UserDefinition.renameReferences old new) := by
  rw [userDefinition?_rename renames differs]
  by_cases isOld : name = old
  · subst isOld
    simp [differs.symm]
  · rw [Expression.renameName_of_ne isOld,
      Expression.renameName_of_ne notNew]
    simp [isOld]

theorem eq_of_rename_same (same : old = new)
    (renames : environment.rename old new = .ok renamed) :
    renamed = environment := by
  unfold rename at renames
  split at renames
  · contradiction
  · rw [if_pos same] at renames
    cases renames
    rfl

theorem limits_rename (renames : environment.rename old new = .ok renamed) :
    renamed.limits = environment.limits := by
  by_cases same : old = new
  · rw [eq_of_rename_same same renames]
  · obtain ⟨-, -, rfl⟩ := (rename_eq_ok_iff same).mp renames
    rfl

end Rename

/-- A definition compiles its source first, and then registers the formula. -/
theorem exists_compile_of_define {environment defined : Environment}
    {name source : Text} {definition : UserDefinition}
    (defines : environment.define name source = .ok (definition, defined)) :
    ∃ formula, environment.compile source = .ok formula ∧
      environment.register name formula = .ok (definition, defined) := by
  obtain ⟨-, defines⟩ := check_bind_eq_ok_iff.mp defines
  obtain ⟨formula, compiles, registers⟩ := bind_eq_ok_iff.mp defines
  cases isResult : environment.compile source with
  | error error =>
      rw [isResult] at compiles
      contradiction
  | ok compiled =>
      rw [isResult] at compiles
      cases compiles
      exact ⟨formula, rfl, registers⟩

theorem exists_register_of_define {environment defined : Environment}
    {name source : Text} {definition : UserDefinition}
    (defines : environment.define name source = .ok (definition, defined)) :
    ∃ formula,
      environment.register name formula = .ok (definition, defined) := by
  obtain ⟨formula, -, registers⟩ := exists_compile_of_define defines
  exact ⟨formula, registers⟩

theorem exists_define_of_processDefinition {environment defined : Environment}
    {name text : Text}
    (processes : environment.processDefinition text = .ok (name, defined)) :
    ∃ source definition,
      environment.define name source = .ok (definition, defined) := by
  obtain ⟨parts, -, processes⟩ := bind_eq_ok_iff.mp processes
  obtain ⟨⟨definition, found⟩, defines, processes⟩ :=
    bind_eq_ok_iff.mp processes
  cases processes
  cases isResult : environment.define parts.name parts.expression with
  | error error =>
      rw [isResult] at defines
      contradiction
  | ok result =>
      rw [isResult] at defines
      cases defines
      exact ⟨parts.expression, definition, isResult⟩

/-- The environments that come about when definitions are added, removed and
renamed. -/
inductive IsReachable : Environment → Prop
  | empty (limits : Limits) : IsReachable (.empty limits)
  | register {environment defined : Environment} {name : Text}
      {formula : Formula} {definition : UserDefinition}
      (reachable : IsReachable environment)
      (registers :
        environment.register name formula = .ok (definition, defined)) :
      IsReachable defined
  | define {environment defined : Environment} {name source : Text}
      {definition : UserDefinition} (reachable : IsReachable environment)
      (defines : environment.define name source = .ok (definition, defined)) :
      IsReachable defined
  | processDefinition {environment defined : Environment} {name text : Text}
      (reachable : IsReachable environment)
      (processes : environment.processDefinition text = .ok (name, defined)) :
      IsReachable defined
  | remove {environment : Environment} (reachable : IsReachable environment)
      (name : Text) : IsReachable (environment.remove name).2
  | rename {environment renamed : Environment} {old new : Text}
      (reachable : IsReachable environment)
      (renames : environment.rename old new = .ok renamed) :
      IsReachable renamed

/-- What holds without definitions, and is kept by a registration, a removal and
a renaming, holds of every reachable environment.  The other two operations end
with a registration. -/
theorem IsReachable.induct (Holds : Environment → Prop)
    (empty : ∀ limits, Holds (.empty limits))
    (register : ∀ {environment defined : Environment} {name : Text}
      {formula : Formula} {definition : UserDefinition}, Holds environment →
        environment.register name formula = .ok (definition, defined) →
          Holds defined)
    (remove : ∀ {environment : Environment} (name : Text),
      Holds environment → Holds (environment.remove name).2)
    (rename : ∀ {environment renamed : Environment} {old new : Text},
      Holds environment → environment.rename old new = .ok renamed →
        Holds renamed)
    {environment : Environment} (reachable : environment.IsReachable) :
    Holds environment := by
  induction reachable with
  | empty limits => exact empty limits
  | register _ registers holds => exact register holds registers
  | define _ defines holds =>
      obtain ⟨formula, registers⟩ := exists_register_of_define defines
      exact register holds registers
  | processDefinition _ processes holds =>
      obtain ⟨source, definition, defines⟩ :=
        exists_define_of_processDefinition processes
      obtain ⟨formula, registers⟩ := exists_register_of_define defines
      exact register holds registers
  | remove _ name holds => exact remove name holds
  | rename _ renames holds => exact rename holds renames

/-- Definitions are found under definable names only. -/
theorem IsReachable.isDefinable {environment : Environment}
    (reachable : environment.IsReachable) {name : Text}
    (isDefined : environment.userDefinition? name ≠ none) :
    IsDefinable name := by
  refine reachable.induct
    (fun environment => ∀ {name : Text},
      environment.userDefinition? name ≠ none → IsDefinable name)
    ?empty ?register ?remove ?rename isDefined
  case empty => exact fun _ _ isDefined => absurd rfl isDefined
  case register =>
    intro environment defined target formula definition definable registers
      name isDefined
    obtain ⟨available, -, rfl⟩ := register_eq_ok_iff.mp registers
    rw [userDefinition?_insert] at isDefined
    split at isDefined
    next same =>
        rw [same]
        exact (checkAvailable_eq_ok_iff.mp available).1
    next => exact definable isDefined
  case remove =>
    intro environment removed definable name isDefined
    rw [userDefinition?_remove] at isDefined
    split at isDefined
    next => contradiction
    next => exact definable isDefined
  case rename =>
    intro environment renamed old new definable renames name isDefined
    by_cases same : old = new
    · rw [eq_of_rename_same same renames] at isDefined
      exact definable isDefined
    obtain ⟨-, available, -⟩ := (rename_eq_ok_iff same).mp renames
    rw [userDefinition?_rename renames same] at isDefined
    split at isDefined
    next => contradiction
    next =>
        by_cases isNew : name = new
        · rw [isNew]
          exact (checkAvailable_eq_ok_iff.mp available).1
        · rw [Expression.renameName_of_ne isNew] at isDefined
          exact definable fun undefined => isDefined (by rw [undefined]; rfl)

/-- A definition never hides behind a built-in one. -/
theorem IsReachable.not_builtin {environment : Environment}
    (reachable : environment.IsReachable) {name : Text}
    (isDefined : environment.userDefinition? name ≠ none) :
    builtinDefinition? name = none :=
  (reachable.isDefinable isDefined).not_builtin

/-- What holds of everything that a formula can define, and is not lost by a
renaming, holds of every definition. -/
theorem IsReachable.forall_userDefinition {environment : Environment}
    (reachable : environment.IsReachable) (Holds : UserDefinition → Prop)
    (defines : ∀ {environment : Environment} {formula definition},
      environment.definitionOf formula = .ok definition → Holds definition)
    (renames : ∀ old new {definition}, Holds definition →
      Holds (definition.renameReferences old new))
    {name : Text} {definition : UserDefinition}
    (found : environment.userDefinition? name = some definition) :
    Holds definition := by
  refine reachable.induct
    (fun environment => ∀ {name : Text} {definition : UserDefinition},
      environment.userDefinition? name = some definition → Holds definition)
    ?empty ?register ?remove ?rename found
  case empty => exact fun _ _ _ found => nomatch found
  case register =>
    intro environment defined target formula added holds registers name
      definition found
    obtain ⟨-, isDefinition, rfl⟩ := register_eq_ok_iff.mp registers
    rw [userDefinition?_insert] at found
    split at found
    next =>
        cases found
        exact defines isDefinition
    next => exact holds found
  case remove =>
    intro environment removed holds name definition found
    rw [userDefinition?_remove] at found
    split at found
    next => contradiction
    next => exact holds found
  case rename =>
    intro environment renamed old new holds isRenaming name definition found
    by_cases same : old = new
    · rw [eq_of_rename_same same isRenaming] at found
      exact holds found
    rw [userDefinition?_rename isRenaming same] at found
    split at found
    next => contradiction
    next =>
        obtain ⟨before, isBefore, rfl⟩ := Option.map_eq_some_iff.mp found
        exact renames old new (holds isBefore)

end Environment
end GraphingCalculator
