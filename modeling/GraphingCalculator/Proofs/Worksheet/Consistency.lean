import GraphingCalculator.Proofs.Compilation.References
import GraphingCalculator.Proofs.Environment.Lookup
import GraphingCalculator.Proofs.Source.Renaming
import GraphingCalculator.Worksheet.Renaming
import Mathlib.Data.List.Nodup

/-!
# Rows and definitions that agree

The rows of a worksheet and the definitions of its environment say the same
thing twice.  They are kept in agreement by an invariant: names of rows are
definable and distinct, every definition belongs to a row or was there from the
start, and every row that does not wait for its compilation agrees with its
definition.  The definitions from the start never come to refer to a row.  This
file states the invariant and proves it for the steps that the operations
consist of.
-/

namespace GraphingCalculator

/-- A definition that was obtained from another one by renamings. -/
def UserDefinition.IsRenamed (first second : UserDefinition) : Prop :=
  ∃ renamings : List (Text × Text),
    renamings.foldl
      (fun definition (old, new) => definition.renameReferences old new)
      first = second

theorem UserDefinition.IsRenamed.refl (definition : UserDefinition) :
    definition.IsRenamed definition :=
  ⟨[], rfl⟩

theorem UserDefinition.IsRenamed.renameReferences
    {first second : UserDefinition} (renamed : first.IsRenamed second)
    (old new : Text) : first.IsRenamed (second.renameReferences old new) := by
  obtain ⟨renamings, rfl⟩ := renamed
  exact ⟨renamings ++ [(old, new)], by rw [List.foldl_append]; rfl⟩

namespace Row

open Environment

variable {environment : Environment} {row : Row}

/-- A row and the definition under its name say the same.  A row that compiled
has the function or the constant of its formula, and any other row has no
definition. -/
def Agrees (environment : Environment) (row : Row) : Prop :=
  match row.state with
  | .compiled formula =>
      formula.source = row.body ∧
        if formula.usesVariable then
          environment.definition? row.name = some (.user (.function formula))
        else
          ∃ value, environment.definition? row.name =
            some (.user (.constant value row.body))
  | .blank | .failed _ => environment.definition? row.name = none

/-- A row that agrees with its definition, and whose formula refers to
identifiers of its body only. -/
structure IsSettled (environment : Environment) (row : Row) : Prop where
  agrees : row.Agrees environment
  mentioned : ∀ formula, row.formula? = some formula →
    ∀ name, formula.references name = true → mentions row.body name = true

/-- The three ways in which the compilation of a row ends. -/
theorem compile_cases (environment : Environment) (row : Row) :
    (Text.trim row.body).isEmpty = true ∧
        row.compile environment =
          (.blank, (environment.remove row.name).2) ∨
      (∃ error, row.compile environment =
        (.failed error, (environment.remove row.name).2)) ∨
      ∃ formula definition,
        (environment.remove row.name).2.compile row.body = .ok formula ∧
          (environment.remove row.name).2.definitionOf formula =
            .ok definition ∧
          row.compile environment =
            (.compiled formula,
              (environment.remove row.name).2.insert row.name definition) := by
  rw [compile]
  split
  next isBlank => exact .inl ⟨isBlank, rfl⟩
  split
  next error _ => exact .inr (.inl ⟨_, rfl⟩)
  next formula compiles =>
      split
      next error _ => exact .inr (.inl ⟨_, rfl⟩)
      next definition defined registers =>
          obtain ⟨-, defines, rfl⟩ := register_eq_ok_iff.mp registers
          exact .inr (.inr ⟨formula, definition, compiles, defines, rfl⟩)

/-- What a row that compiled was made from. -/
theorem compile_eq_of_compiled {formula : Formula}
    (isCompiled : (row.compile environment).1 = .compiled formula) :
    ∃ definition,
      (environment.remove row.name).2.compile row.body = .ok formula ∧
        (environment.remove row.name).2.definitionOf formula =
          .ok definition ∧
        row.compile environment =
          (.compiled formula,
            (environment.remove row.name).2.insert row.name definition) := by
  rcases compile_cases environment row with
    ⟨-, ends⟩ | ⟨error, ends⟩ | ⟨found, definition, compiles, defines, ends⟩
  · rw [ends] at isCompiled
    contradiction
  · rw [ends] at isCompiled
    contradiction
  · rw [ends] at isCompiled
    cases isCompiled
    exact ⟨definition, compiles, defines, ends⟩

theorem userDefinition?_compile_of_ne {other : Text}
    (differs : other ≠ row.name) :
    (row.compile environment).2.userDefinition? other =
      environment.userDefinition? other := by
  rcases compile_cases environment row with
    ⟨-, ends⟩ | ⟨error, ends⟩ | ⟨formula, definition, -, -, ends⟩
  · rw [ends, userDefinition?_remove_of_ne differs]
  · rw [ends, userDefinition?_remove_of_ne differs]
  · rw [ends, userDefinition?_insert, if_neg differs,
      userDefinition?_remove_of_ne differs]

/-- A row is settled by its own compilation. -/
theorem isSettled_compile (definable : IsDefinable row.name) :
    { row with state := (row.compile environment).1 }.IsSettled
      (row.compile environment).2 := by
  have undefined : (environment.remove row.name).2.definition? row.name =
      none :=
    definition?_eq_none_iff.mpr
      ⟨definable.not_builtin, userDefinition?_remove_self ..⟩
  rcases compile_cases environment row with
    ⟨-, ends⟩ | ⟨error, ends⟩ | ⟨formula, definition, compiles, defines, ends⟩
  · rw [ends]
    exact ⟨undefined, fun formula isFormula => by cases isFormula⟩
  · rw [ends]
    exact ⟨undefined, fun formula isFormula => by cases isFormula⟩
  · rw [ends]
    have isSource := source_of_compile compiles
    have isDefined : ((environment.remove row.name).2.insert row.name
        definition).definition? row.name = some (.user definition) := by
      rw [definition?_of_not_builtin definable.not_builtin,
        userDefinition?_insert, if_pos rfl]
      rfl
    refine ⟨⟨isSource, ?_⟩, fun found isFormula name refers => ?_⟩
    · rcases definitionOf_eq_ok_iff.mp defines with
        ⟨reads, rfl⟩ | ⟨reads, value, -, rfl⟩
      · rw [if_pos reads]
        exact isDefined
      · rw [if_neg (by simp [reads]), isSource] at *
        exact ⟨value, isDefined⟩
    · cases isFormula
      exact mentions_of_references_compile compiles refers

theorem IsSettled.congr {second : Environment}
    (settled : row.IsSettled environment)
    (same : second.userDefinition? row.name =
      environment.userDefinition? row.name) : row.IsSettled second := by
  have sameDefinition := definition?_congr same
  refine ⟨?_, settled.mentioned⟩
  have agrees := settled.agrees
  unfold Agrees at agrees ⊢
  rw [sameDefinition]
  exact agrees

/-- The row under the name that it has after a renaming. -/
def relabel (old new : Text) (row : Row) : Row :=
  { row with name := Expression.renameName old new row.name }

/-- What a settled row defines does not refer to a name that the row does not
mention. -/
theorem IsSettled.map_renameReferences {old : Text}
    (settled : row.IsSettled environment) (definable : IsDefinable row.name)
    (notMentioned : mentions row.body old = false) (new : Text) :
    (environment.userDefinition? row.name).map
        (UserDefinition.renameReferences old new) =
      environment.userDefinition? row.name := by
  have agrees := settled.agrees
  unfold Agrees at agrees
  rw [definition?_of_not_builtin definable.not_builtin] at agrees
  cases isState : row.state with
  | blank | failed error =>
      simp only [isState, Option.map_eq_none_iff] at agrees
      simp [agrees]
  | compiled formula =>
      simp only [isState] at agrees
      obtain ⟨-, agrees⟩ := agrees
      have notReferenced : formula.references old = false := by
        rw [← Bool.not_eq_true]
        intro refers
        have mentioned := settled.mentioned formula
          (by simp [formula?, isState]) old refers
        rw [notMentioned] at mentioned
        contradiction
      split at agrees
      next =>
          have isFunction : environment.userDefinition? row.name =
              some (.function formula) := by simpa using agrees
          simp [isFunction, UserDefinition.renameReferences, notReferenced]
      next =>
          obtain ⟨value, agrees⟩ := agrees
          have isConstant : environment.userDefinition? row.name =
              some (.constant value row.body) := by simpa using agrees
          simp [isConstant, UserDefinition.renameReferences,
            renameIdentifier_of_not_mentions notMentioned]

/-- A row whose body does not mention the renamed definition stays settled. -/
theorem IsSettled.relabel {second : Environment} {old new : Text}
    (settled : row.IsSettled environment) (definable : IsDefinable row.name)
    (definableRenamed : IsDefinable (Expression.renameName old new row.name))
    (notMentioned : mentions row.body old = false)
    {change : UserDefinition → UserDefinition}
    (isChange : change = id ∨ change = UserDefinition.renameReferences old new)
    (follows : second.userDefinition?
        (Expression.renameName old new row.name) =
      (environment.userDefinition? row.name).map change) :
    (row.relabel old new).IsSettled second := by
  have sameDefinition :
      second.definition? (Expression.renameName old new row.name) =
        environment.definition? row.name := by
    rw [definition?_of_not_builtin definable.not_builtin,
      definition?_of_not_builtin definableRenamed.not_builtin, follows]
    rcases isChange with rfl | rfl
    · rw [Option.map_id_apply]
    · rw [settled.map_renameReferences definable notMentioned]
  refine ⟨?_, settled.mentioned⟩
  have agrees := settled.agrees
  unfold Agrees at agrees ⊢
  rw [Row.relabel, sameDefinition]
  exact agrees

@[simp]
theorem name_renameIdentifiers (old new : Text) (row : Row) :
    (row.renameIdentifiers old new).name = row.name := by
  unfold renameIdentifiers
  dsimp only
  split <;> rfl

@[simp]
theorem body_renameIdentifiers (old new : Text) (row : Row) :
    (row.renameIdentifiers old new).body =
      renameIdentifier old new row.body := by
  unfold renameIdentifiers
  dsimp only
  split <;> rfl

@[simp]
theorem state_renameIdentifiers (old new : Text) (row : Row) :
    (row.renameIdentifiers old new).state = row.state := by
  unfold renameIdentifiers
  dsimp only
  split <;> rfl

theorem offset_renameIdentifiers {old : Text}
    (notMentioned : mentions row.text old = false) (new : Text) :
    (row.renameIdentifiers old new).offset = row.offset := by
  rw [renameIdentifiers, renameIdentifier_of_not_mentions notMentioned]
  simp

theorem IsSettled.renameIdentifiers {old new : Text}
    (settled : row.IsSettled environment)
    (notMentioned : mentions row.body old = false) :
    (row.renameIdentifiers old new).IsSettled environment := by
  have sameBody : renameIdentifier old new row.body = row.body :=
    renameIdentifier_of_not_mentions notMentioned
  refine ⟨?_, fun formula isFormula name refers => ?_⟩
  · have agrees := settled.agrees
    unfold Agrees at agrees ⊢
    rwa [state_renameIdentifiers, name_renameIdentifiers,
      body_renameIdentifiers, sameBody]
  · rw [body_renameIdentifiers, sameBody]
    refine settled.mentioned formula ?_ name refers
    rwa [formula?, state_renameIdentifiers] at isFormula

end Row

namespace Worksheet

/-- What a pass does, step by step: if a property can fail at the pending
indices, and each step settles its own index, then nothing that the pass has
reached is pending afterwards. -/
theorem foldl_settles {Sheet : Type} {step : Sheet → Nat → Sheet}
    (holds : (Nat → Prop) → Sheet → Prop)
    (mono : ∀ {pending later sheet}, holds pending sheet →
      (∀ index, pending index → later index) → holds later sheet)
    {indices : List Nat} (settles : ∀ {pending sheet}, ∀ index ∈ indices,
      holds pending sheet →
        holds (fun other => pending other ∧ other ≠ index) (step sheet index))
    {pending : Nat → Prop} {sheet : Sheet} (before : holds pending sheet) :
    holds (fun other => pending other ∧ other ∉ indices)
      (indices.foldl step sheet) := by
  induction indices generalizing pending sheet with
  | nil => exact mono before fun index isPending => ⟨isPending, by simp⟩
  | cons index rest ih =>
      have settled := ih
        (fun other member => settles other (List.mem_cons_of_mem _ member))
        (settles index List.mem_cons_self before)
      refine mono settled ?_
      rintro other ⟨⟨isPending, notIndex⟩, notRest⟩
      exact ⟨isPending, by simp [notIndex, notRest]⟩

/-- The names of the rows. -/
def names (sheet : Worksheet) : List Text :=
  sheet.rows.map Row.name

/-- Check that the row at an index mentions a name. -/
def MentionsAt (sheet : Worksheet) (name : Text) (index : Nat) : Prop :=
  ∃ row, sheet.rows[index]? = some row ∧ mentions row.body name = true

theorem getElem?_modifyRow (sheet : Worksheet) (index : Nat)
    (change : Row → Row) (other : Nat) :
    (sheet.modifyRow index change).rows[other]? =
      sheet.rows[other]?.map fun row =>
        if index = other then change row else row := by
  rw [modifyRow, List.getElem?_modify]
  rfl

/-- The definitions that do not belong to a row refer neither to a row nor to a
name without a definition. -/
def KeepsApart (sheet : Worksheet) : Prop :=
  ∀ name definition, name ∉ sheet.names →
    sheet.environment.userDefinition? name = some definition →
      ∀ target, definition.RefersTo target →
        sheet.environment.userDefinition? target ≠ none ∧
          target ∉ sheet.names

/-- A worksheet whose rows agree with the definitions, apart from the rows that
are pending.  The definitions of `start` are still there, and `present` tells
the name that each of them has now. -/
structure IsConsistent (start : Environment) (present : Text → Text)
    (pending : Nat → Prop) (sheet : Worksheet) : Prop where
  distinct : sheet.names.Nodup
  definable : ∀ name ∈ sheet.names, IsDefinable name
  kept : ∀ given definition, start.userDefinition? given = some definition →
    ∃ current,
      sheet.environment.userDefinition? (present given) = some current ∧
        definition.IsRenamed current
  apart : ∀ given, start.userDefinition? given ≠ none →
    present given ∉ sheet.names
  accounted : ∀ name, sheet.environment.userDefinition? name ≠ none →
    (∃ given, start.userDefinition? given ≠ none ∧ present given = name) ∨
      name ∈ sheet.names
  keepsApart : start.IsClosed → sheet.KeepsApart
  settled : ∀ index row, sheet.rows[index]? = some row → ¬ pending index →
    row.IsSettled sheet.environment

variable {start : Environment} {present : Text → Text}
variable {pending later : Nat → Prop} {sheet : Worksheet}

theorem names_modifyRow (index : Nat) {change : Row → Row}
    (keepsName : ∀ row, (change row).name = row.name) :
    (sheet.modifyRow index change).names = sheet.names := by
  refine List.ext_getElem? fun other => ?_
  rw [names, names, List.getElem?_map, List.getElem?_map, getElem?_modifyRow]
  cases sheet.rows[other]? with
  | none => rfl
  | some row => by_cases same : index = other <;> simp [same, keepsName]

theorem isConsistent_ofEnvironment (start : Environment) :
    IsConsistent start id (fun _ => False) (ofEnvironment start) where
  distinct := List.nodup_nil
  definable := by simp [names, ofEnvironment]
  kept given definition found := ⟨definition, found, .refl definition⟩
  apart := by simp [names, ofEnvironment]
  accounted name found := .inl ⟨name, found, rfl⟩
  keepsApart isClosed name definition _ found target refers :=
    ⟨isClosed name definition found target refers, by
      simp [names, ofEnvironment]⟩
  settled := by simp [ofEnvironment]

namespace IsConsistent

theorem mono (consistent : IsConsistent start present pending sheet)
    (stillPending : ∀ index, pending index → later index) :
    IsConsistent start present later sheet :=
  { consistent with
    settled := fun index row found notLater =>
      consistent.settled index row found fun isPending =>
        notLater (stillPending index isPending) }

theorem name_mem {index : Nat} {row : Row}
    (found : sheet.rows[index]? = some row) : row.name ∈ sheet.names :=
  List.mem_map_of_mem (List.mem_of_getElem? found)

theorem of_missing (consistent : IsConsistent start present pending sheet)
    {index : Nat} (missing : sheet.rows[index]? = none) :
    IsConsistent start present (fun other => pending other ∧ other ≠ index)
      sheet := by
  refine { consistent with settled := fun other row found notPending => ?_ }
  refine consistent.settled other row found fun isPending => ?_
  refine notPending ⟨isPending, ?_⟩
  rintro rfl
  rw [missing] at found
  contradiction

/-- Rows at different places have different names. -/
theorem name_ne (consistent : IsConsistent start present pending sheet)
    {first second : Nat} {row other : Row}
    (foundRow : sheet.rows[first]? = some row)
    (foundOther : sheet.rows[second]? = some other) (apart : first ≠ second) :
    row.name ≠ other.name := by
  intro same
  have inRange : first < sheet.names.length := by
    rw [names, List.length_map]
    exact (List.getElem?_eq_some_iff.mp foundRow).1
  refine apart ((List.getElem?_inj inRange consistent.distinct).mp ?_)
  simp only [names, List.getElem?_map, foundRow, foundOther, Option.map_some,
    same]

/-- Rows can be exchanged for others of the same names. -/
theorem withRows (consistent : IsConsistent start present pending sheet)
    {changed : Worksheet}
    (sameEnvironment : changed.environment = sheet.environment)
    (sameNames : changed.names = sheet.names)
    (settled : ∀ index row, changed.rows[index]? = some row → ¬ later index →
      row.IsSettled sheet.environment) :
    IsConsistent start present later changed where
  distinct := sameNames ▸ consistent.distinct
  definable := sameNames ▸ consistent.definable
  kept := sameEnvironment ▸ consistent.kept
  apart := sameNames ▸ consistent.apart
  accounted := by
    rw [sameNames, sameEnvironment]
    exact consistent.accounted
  keepsApart isClosed := by
    rw [KeepsApart, sameNames, sameEnvironment]
    exact consistent.keepsApart isClosed
  settled := sameEnvironment ▸ settled

/-- A row changes its state, and nothing but the definition under its name
changes with it. -/
theorem setState (consistent : IsConsistent start present pending sheet)
    {index : Nat} {row : Row} (isRow : sheet.rows[index]? = some row)
    {state : Row.State} {environment : Environment}
    (others : ∀ name, name ≠ row.name →
      environment.userDefinition? name =
        sheet.environment.userDefinition? name)
    (settles : { row with state }.IsSettled environment) :
    IsConsistent start present (fun other => pending other ∧ other ≠ index)
      ⟨environment, sheet.rows.set index { row with state }⟩ := by
  have sameNames : (sheet.rows.set index { row with state }).map Row.name =
      sheet.names := by
    rw [List.map_set]
    obtain ⟨inRange, rfl⟩ := List.getElem?_eq_some_iff.mp isRow
    refine List.ext_getElem? fun other => ?_
    simp only [List.getElem?_set, names, List.getElem?_map, List.length_map]
    split
    next same => simp [← same, inRange]
    next => rfl
  refine
    { distinct := ?_
      definable := ?_
      kept := fun given definition isGiven => ?_
      apart := ?_
      accounted := fun name isDefined => ?_
      keepsApart := fun isClosed name definition notRow found target
        refers => ?_
      settled := fun other otherRow foundOther notPending => ?_ }
  · rw [names, sameNames]
    exact consistent.distinct
  · rw [names, sameNames]
    exact consistent.definable
  · obtain ⟨current, isCurrent, renamed⟩ :=
      consistent.kept given definition isGiven
    have differs : present given ≠ row.name := fun same =>
      consistent.apart given (by simp [isGiven]) (same ▸ name_mem isRow)
    exact ⟨current, by rw [others _ differs, isCurrent], renamed⟩
  · rw [names, sameNames]
    exact consistent.apart
  · rw [names, sameNames]
    by_cases same : name = row.name
    · exact .inr (same ▸ name_mem isRow)
    · rw [others name same] at isDefined
      exact consistent.accounted name isDefined
  · rw [names, sameNames] at notRow ⊢
    have ne_row {other : Text} (notOther : other ∉ sheet.names) :
        other ≠ row.name := fun same => notOther (same ▸ name_mem isRow)
    rw [others name (ne_row notRow)] at found
    obtain ⟨isDefined, notTarget⟩ :=
      consistent.keepsApart isClosed name definition notRow found target refers
    exact ⟨by rwa [others target (ne_row notTarget)], notTarget⟩
  · by_cases same : index = other
    · subst same
      obtain ⟨inRange, -⟩ := List.getElem?_eq_some_iff.mp isRow
      rw [List.getElem?_set_self inRange] at foundOther
      cases foundOther
      exact settles
    · rw [List.getElem?_set_ne same] at foundOther
      have settled := consistent.settled other otherRow foundOther
        fun isPending => notPending ⟨isPending, Ne.symm same⟩
      exact settled.congr
        (others _ (consistent.name_ne foundOther isRow (Ne.symm same)))

theorem recompile (consistent : IsConsistent start present pending sheet)
    (index : Nat) :
    IsConsistent start present (fun other => pending other ∧ other ≠ index)
      (sheet.recompile index) := by
  unfold Worksheet.recompile
  split
  next missing => exact consistent.of_missing missing
  next row found =>
      exact consistent.setState found
        (fun name differs => Row.userDefinition?_compile_of_ne differs)
        (Row.isSettled_compile (consistent.definable _ (name_mem found)))

theorem recompileAll (consistent : IsConsistent start present pending sheet)
    (indices : List Nat) :
    IsConsistent start present (fun other => pending other ∧ other ∉ indices)
      (indices.foldl Worksheet.recompile sheet) :=
  foldl_settles (IsConsistent start present) mono
    (fun index _ consistent => consistent.recompile index) consistent

theorem failRow (consistent : IsConsistent start present pending sheet)
    (index : Nat) (error : CalculationError) :
    IsConsistent start present (fun other => pending other ∧ other ≠ index)
      (sheet.failRow index error) := by
  unfold Worksheet.failRow
  split
  next missing => exact consistent.of_missing missing
  next row found =>
      refine consistent.setState found
        (fun name differs => Environment.userDefinition?_remove_of_ne differs _)
        ⟨?_, fun formula isFormula => by cases isFormula⟩
      exact Environment.definition?_eq_none_iff.mpr
        ⟨(consistent.definable _ (name_mem found)).not_builtin,
          Environment.userDefinition?_remove_self ..⟩

/-- A row changes without changing its name. -/
theorem modifyRow (consistent : IsConsistent start present pending sheet)
    (index : Nat) (change : Row → Row)
    (keepsName : ∀ row, (change row).name = row.name) :
    IsConsistent start present (fun other => pending other ∨ other = index)
      (sheet.modifyRow index change) := by
  refine consistent.withRows rfl (names_modifyRow index keepsName)
    fun other row found notPending => ?_
  push Not at notPending
  rw [getElem?_modifyRow] at found
  simp only [Ne.symm notPending.2, if_false, Option.map_id'] at found
  exact consistent.settled other row found notPending.1

end IsConsistent

section Rename

variable {old new : Text} {environment : Environment}

theorem checkName_eq_ok_iff {name : Text} :
    sheet.checkName name = .ok () ↔
      sheet.environment.checkAvailable name = .ok () ∧ name ∉ sheet.names := by
  rw [checkName, check_bind_eq_ok_iff]
  refine and_congr_right fun _ => ?_
  split
  next taken =>
      simp only [List.any_eq_true, decide_eq_true_eq] at taken
      simp [names, taken]
  next free =>
      simp only [List.any_eq_true, decide_eq_true_eq] at free
      simpa [names, pure, Except.pure] using free

/-- Renaming a definition moves it to the new name and turns its references.
Nothing else is defined afterwards. -/
theorem renameDefinition_spec (differs : old ≠ new)
    (available : sheet.checkName new = .ok ())
    (renames : sheet.renameDefinition old new = .ok environment) :
    (∃ change, (change = id ∧ sheet.environment.userDefinition? old = none ∨
        change = UserDefinition.renameReferences old new) ∧
      ∀ name, name ≠ new →
        environment.userDefinition? (Expression.renameName old new name) =
          (sheet.environment.userDefinition? name).map change) ∧
      ∀ name, environment.userDefinition? name ≠ none →
        ∃ earlier, earlier ≠ new ∧
          Expression.renameName old new earlier = name ∧
            sheet.environment.userDefinition? earlier ≠ none := by
  have free : sheet.environment.userDefinition? new = none :=
    (Environment.checkAvailable_eq_ok_iff.mp
      (checkName_eq_ok_iff.mp available).1).2
  rw [renameDefinition] at renames
  split at renames
  next =>
      refine ⟨⟨_, .inr rfl, fun name notNew =>
        Environment.userDefinition?_renameName renames differs notNew⟩, ?_⟩
      intro name isDefined
      rw [Environment.userDefinition?_rename renames differs] at isDefined
      by_cases isOld : name = old
      · simp [isOld] at isDefined
      · refine ⟨Expression.renameName new old name, ?_, ?_, ?_⟩
        · by_cases isNew : name = new
          · simpa [isNew] using differs
          · rwa [Expression.renameName_of_ne isNew]
        · by_cases isNew : name = new
          · simp [isNew]
          · rw [Expression.renameName_of_ne isNew,
              Expression.renameName_of_ne isOld]
        · simpa [isOld] using isDefined
  next notContained =>
      cases renames
      have undefined : sheet.environment.userDefinition? old = none :=
        (Environment.contains_eq_false_iff.mp (by simpa using notContained)).2
      refine ⟨⟨id, .inl ⟨rfl, undefined⟩, fun name notNew => ?_⟩, ?_⟩
      · by_cases isOld : name = old
        · simp [isOld, free, undefined]
        · simp [Expression.renameName_of_ne isOld]
      · intro name isDefined
        refine ⟨name, ?_, Expression.renameName_of_ne ?_, isDefined⟩
        · rintro rfl
          exact isDefined free
        · rintro rfl
          exact isDefined undefined

/-- A renaming of definitions and rows keeps a worksheet consistent, except for
the rows that mention the renamed definition. -/
theorem IsConsistent.relabel
    (consistent : IsConsistent start present pending sheet)
    (differs : old ≠ new) (available : sheet.checkName new = .ok ())
    (renames : sheet.renameDefinition old new = .ok environment) :
    IsConsistent start
      (fun given => Expression.renameName old new (present given))
      (fun index => pending index ∨
        MentionsAt ⟨environment, sheet.rows.map (Row.relabel old new)⟩ old
          index)
      ⟨environment, sheet.rows.map (Row.relabel old new)⟩ := by
  obtain ⟨canDefine, notRow⟩ := checkName_eq_ok_iff.mp available
  obtain ⟨definableNew, free⟩ :=
    Environment.checkAvailable_eq_ok_iff.mp canDefine
  obtain ⟨⟨change, isChange, follows⟩, nothingElse⟩ :=
    renameDefinition_spec differs available renames
  have newNames : names ⟨environment, sheet.rows.map (Row.relabel old new)⟩ =
      sheet.names.map (Expression.renameName old new) := by
    simp [names, Row.relabel, Function.comp_def]
  have ne_new : ∀ name ∈ sheet.names, name ≠ new := by
    rintro name member rfl
    exact notRow member
  have definableRenamed : ∀ name ∈ sheet.names,
      IsDefinable (Expression.renameName old new name) := by
    intro name member
    by_cases isOld : name = old
    · rw [isOld, Expression.renameName_self]
      exact definableNew
    · rw [Expression.renameName_of_ne isOld]
      exact consistent.definable name member
  have present_ne_new (given : Text)
      (isGiven : start.userDefinition? given ≠ none) : present given ≠ new := by
    intro same
    obtain ⟨definition, isDefinition⟩ := Option.ne_none_iff_exists'.mp isGiven
    obtain ⟨current, isCurrent, -⟩ :=
      consistent.kept given definition isDefinition
    rw [same, free] at isCurrent
    contradiction
  refine
    { distinct := ?_
      definable := ?_
      kept := fun given definition isGiven => ?_
      apart := fun given isGiven member => ?_
      accounted := fun name isDefined => ?_
      keepsApart := fun isClosed name definition notRowAfter found target
        refers => ?_
      settled := fun index row found notPending => ?_ }
  · rw [newNames]
    exact consistent.distinct.map_on fun first isFirst second isSecond same =>
      Expression.renameName_inj (ne_new first isFirst)
        (ne_new second isSecond) same
  · rw [newNames]
    intro name member
    obtain ⟨earlier, isEarlier, rfl⟩ := List.mem_map.mp member
    exact definableRenamed earlier isEarlier
  · obtain ⟨current, isCurrent, renamed⟩ :=
      consistent.kept given definition isGiven
    refine ⟨change current, ?_, ?_⟩
    · rw [follows _ (present_ne_new given (by simp [isGiven])), isCurrent]
      rfl
    · rcases isChange with ⟨rfl, -⟩ | rfl
      · exact renamed
      · exact renamed.renameReferences old new
  · rw [newNames] at member
    obtain ⟨name, isName, same⟩ := List.mem_map.mp member
    have sameName := Expression.renameName_inj (ne_new name isName)
      (present_ne_new given isGiven) same
    exact consistent.apart given isGiven (sameName ▸ isName)
  · obtain ⟨earlier, -, rfl, wasDefined⟩ := nothingElse name isDefined
    rcases consistent.accounted earlier wasDefined with
      ⟨given, isGiven, rfl⟩ | isRow
    · exact .inl ⟨given, isGiven, rfl⟩
    · rw [newNames]
      exact .inr (List.mem_map_of_mem isRow)
  · obtain ⟨earlier, notNew, rfl, wasDefined⟩ :=
      nothingElse name (by simp [found])
    obtain ⟨before, isBefore⟩ := Option.ne_none_iff_exists'.mp wasDefined
    rw [follows earlier notNew, isBefore, Option.map_some, Option.some.injEq]
      at found
    rw [newNames] at notRowAfter ⊢
    have keeps (source : Text) (refersBefore : before.RefersTo source) :=
      consistent.keepsApart isClosed earlier before
        (fun isRow => notRowAfter (List.mem_map_of_mem isRow)) isBefore source
        refersBefore
    obtain ⟨source, refersBefore, rfl⟩ : ∃ source, before.RefersTo source ∧
        Expression.renameName old new source = target := by
      rcases isChange with ⟨rfl, undefined⟩ | rfl
      · rw [id] at found
        subst found
        refine ⟨target, refers, Expression.renameName_of_ne ?_⟩
        rintro rfl
        exact (keeps target refers).1 undefined
      · exact UserDefinition.exists_refersTo_of_renameReferences
          (found ▸ refers)
    obtain ⟨isDefined, notSource⟩ := keeps source refersBefore
    have sourceNotNew : source ≠ new := by
      rintro rfl
      exact isDefined free
    refine ⟨by simpa [follows source sourceNotNew] using isDefined, ?_⟩
    intro member
    obtain ⟨other, isRow, same⟩ := List.mem_map.mp member
    exact notSource (Expression.renameName_inj (ne_new other isRow)
      sourceNotNew same ▸ isRow)
  · push Not at notPending
    rw [List.getElem?_map, Option.map_eq_some_iff] at found
    obtain ⟨row, found, rfl⟩ := found
    have member := name_mem found
    have notMentioned : mentions row.body old = false := by
      rw [← Bool.not_eq_true]
      exact fun mentioned => notPending.2
        ⟨row.relabel old new, by simp [found], mentioned⟩
    exact (consistent.settled index row found notPending.1).relabel
      (consistent.definable _ member) (definableRenamed _ member)
      notMentioned (isChange.imp And.left id) (follows _ (ne_new _ member))

/-- The worksheet with mentions of `old` replaced in every row but one. -/
def rewrite (sheet : Worksheet) (old new : Text) (skipped : Option Nat) :
    Worksheet :=
  { sheet with
    rows := sheet.rows.mapIdx fun index row =>
      if skipped = some index then row else row.renameIdentifiers old new }

/-- The places of the rows whose bodies a renaming rewrites. -/
def rewritten (sheet : Worksheet) (old new : Text) (skipped : Option Nat) :
    List Nat :=
  (sheet.rows.zipIdx.filter fun (row, index) =>
    (if skipped = some index then row
      else row.renameIdentifiers old new).body ≠ row.body).map Prod.snd

/-- Mentions are replaced first, and then the rows are compiled whose bodies
have changed. -/
theorem propagateRename_eq (sheet : Worksheet) (old new : Text)
    (skipped : Option Nat) :
    sheet.propagateRename old new skipped =
      (sheet.rewritten old new skipped).foldl Worksheet.recompile
        (sheet.rewrite old new skipped) :=
  rfl

theorem mem_rewritten (differs : old ≠ new) {skipped : Option Nat} {index : Nat}
    (notSkipped : skipped ≠ some index)
    (mentioned : sheet.MentionsAt old index) :
    index ∈ sheet.rewritten old new skipped := by
  obtain ⟨row, found, mentioned⟩ := mentioned
  rw [rewritten, List.mem_map]
  refine ⟨(row, index), ?_, rfl⟩
  rw [List.mem_filter, List.mem_zipIdx_iff_getElem?]
  refine ⟨found, ?_⟩
  have changes := (renameIdentifier_eq_self_iff differs).not.mpr
    (by simp [mentioned] : ¬ mentions row.body old = false)
  simpa [notSkipped] using changes

theorem names_rewrite (sheet : Worksheet) (old new : Text)
    (skipped : Option Nat) :
    (sheet.rewrite old new skipped).names = sheet.names := by
  refine List.ext_getElem? fun index => ?_
  rw [names, names, List.getElem?_map, List.getElem?_map, Worksheet.rewrite,
    List.getElem?_mapIdx]
  cases sheet.rows[index]? with
  | none => rfl
  | some row => by_cases isSkipped : skipped = some index <;> simp [isSkipped]

theorem IsConsistent.rewrite {skipped : Option Nat}
    (consistent : IsConsistent start present
      (fun index => pending index ∨ sheet.MentionsAt old index) sheet) :
    IsConsistent start present
      (fun index => pending index ∨ sheet.MentionsAt old index)
      (sheet.rewrite old new skipped) := by
  refine consistent.withRows rfl (names_rewrite ..)
    fun index row found notPending => ?_
  rw [Worksheet.rewrite, List.getElem?_mapIdx, Option.map_eq_some_iff]
    at found
  obtain ⟨row, found, rfl⟩ := found
  have settled := consistent.settled index row found notPending
  push Not at notPending
  split
  next => exact settled
  next =>
      refine settled.renameIdentifiers ?_
      rw [← Bool.not_eq_true]
      exact fun mentioned => notPending.2 ⟨row, found, mentioned⟩

/-- No row waits any more that a renaming has rewritten and compiled. -/
theorem pending_of_not_rewritten (differs : old ≠ new) {skipped : Option Nat}
    (skips : ∀ index, skipped = some index → pending index) {index : Nat}
    (waits : (pending index ∨ sheet.MentionsAt old index) ∧
      index ∉ sheet.rewritten old new skipped) : pending index := by
  obtain ⟨isPending | mentioned, notRewritten⟩ := waits
  · exact isPending
  · by_cases isSkipped : skipped = some index
    · exact skips index isSkipped
    · exact absurd (mem_rewritten differs isSkipped mentioned) notRewritten

/-- After the bodies have been rewritten and compiled, the worksheet is
consistent again. -/
theorem IsConsistent.propagateRename {skipped : Option Nat}
    (consistent : IsConsistent start present
      (fun index => pending index ∨ sheet.MentionsAt old index) sheet)
    (differs : old ≠ new)
    (skips : ∀ index, skipped = some index → pending index) :
    IsConsistent start present pending
      (sheet.propagateRename old new skipped) := by
  rw [propagateRename_eq]
  exact (consistent.rewrite.recompileAll _).mono fun index =>
    pending_of_not_rewritten differs skips

end Rename
end Worksheet
end GraphingCalculator
