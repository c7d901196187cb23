import GraphingCalculator.Proofs.Environment.Evaluation
import GraphingCalculator.Proofs.Worksheet.Consistency

/-!
# Fresh rows

A row is fresh if compiling it once more changes neither its state nor its
definition.  Compiling a row makes it fresh.  It stays fresh as long as the
names that it reads keep their meaning, whatever else happens to the
environment, and also through renamings that it does not notice.
-/

namespace GraphingCalculator

namespace Environment

variable {environment : Environment} {name : Text}

theorem Reaches.of_remove {removed target : Text}
    (reaches : (environment.remove removed).2.Reaches name target) :
    environment.Reaches name target := by
  induction reaches with
  | self => exact .self _
  | through isFunction refers reaches ih =>
      rw [meaning?_remove, Option.ite_none_left_eq_some] at isFunction
      exact .through isFunction.2 refers ih

theorem Reaches.trans {middle target : Text}
    (first : environment.Reaches name middle)
    (second : environment.Reaches middle target) :
    environment.Reaches name target := by
  induction first with
  | self => exact second
  | through isFunction refers reaches ih =>
      exact .through isFunction refers (ih second)

/-- What is found after a removal was there before. -/
theorem follows_remove (environment : Environment) (name other : Text) :
    (environment.remove name).2.Follows other other environment := by
  refine follows_of_meaning? (fun found meaning isMeaning => ?_) other
  rw [meaning?_remove, Option.ite_none_left_eq_some] at isMeaning
  exact isMeaning.2

theorem checkAvailable_remove (definable : IsDefinable name) :
    (environment.remove name).2.checkAvailable name = .ok () :=
  checkAvailable_eq_ok_iff.mpr ⟨definable, userDefinition?_remove_self ..⟩

end Environment

namespace Row

variable {environment first second : Environment} {row other : Row}

/-- The names that decide what a row means: the identifiers of its body, and
what can be reached from them through functions. -/
def Reads (environment : Environment) (row : Row) (target : Text) : Prop :=
  ∃ name, mentions row.body name = true ∧ environment.Reaches name target

theorem Reads.of_remove {removed target : Text}
    (reads : row.Reads (environment.remove removed).2 target) :
    row.Reads environment target := by
  obtain ⟨name, mentioned, reaches⟩ := reads
  exact ⟨name, mentioned, reaches.of_remove⟩

theorem compile_of_isBlank (blank : (Text.trim row.body).isEmpty = true)
    (environment : Environment) :
    row.compile environment = (.blank, (environment.remove row.name).2) := by
  rw [compile, if_pos blank]

/-- The compilation of a row that is not blank and has a definable name. -/
theorem compile_of_not_isBlank
    (notBlank : (Text.trim row.body).isEmpty = false)
    (definable : IsDefinable row.name) (environment : Environment) :
    row.compile environment =
      match (environment.remove row.name).2.compile row.body with
      | .error error =>
          (.failed (.inSource (error.shift row.offset)),
            (environment.remove row.name).2)
      | .ok formula =>
          match (environment.remove row.name).2.definitionOf formula with
          | .error error =>
              (.failed (.inDefinition error), (environment.remove row.name).2)
          | .ok definition =>
              (.compiled formula,
                (environment.remove row.name).2.insert row.name
                  definition) := by
  rw [compile, if_neg (by simp [notBlank])]
  cases (environment.remove row.name).2.compile row.body with
  | error error => rfl
  | ok formula =>
      dsimp only
      rw [Environment.register_of_available
        (Environment.checkAvailable_remove definable)]
      cases (environment.remove row.name).2.definitionOf formula <;> rfl

/-- Rows with the same body are compiled alike where everything that they read
has the same meaning. -/
theorem compile_congr (definable : IsDefinable row.name)
    (definableOther : IsDefinable other.name) (sameBody : other.body = row.body)
    (sameOffset : other.offset = row.offset)
    (sameLimits : first.limits = second.limits)
    (same : ∀ target, row.Reads (first.remove row.name).2 target →
      (first.remove row.name).2.meaning? target =
        (second.remove other.name).2.meaning? target) :
    (row.compile first).1 = (other.compile second).1 ∧
      (row.compile first).2.userDefinition? row.name =
        (other.compile second).2.userDefinition? other.name := by
  cases isBlank : (Text.trim row.body).isEmpty with
  | true =>
      rw [compile_of_isBlank isBlank,
        compile_of_isBlank (sameBody ▸ isBlank) second]
      simp
  | false =>
      rw [compile_of_not_isBlank isBlank definable,
        compile_of_not_isBlank (sameBody ▸ isBlank) definableOther second,
        sameBody, sameOffset]
      have sameLimitsRemoved : (first.remove row.name).2.limits =
          (second.remove other.name).2.limits := by
        simp [sameLimits]
      have isFree :=
        Environment.userDefinition?_remove_self first row.name
      have isFreeOther :=
        Environment.userDefinition?_remove_self second other.name
      generalize (first.remove row.name).2 = clearedFirst at *
      generalize (second.remove other.name).2 = clearedSecond at *
      have sameCompilation :
          clearedFirst.compile row.body = clearedSecond.compile row.body :=
        Environment.compile_congr sameLimitsRemoved fun name mentioned =>
          Environment.classify_congr (same name ⟨name, mentioned, .self name⟩)
      rw [← sameCompilation]
      cases compiles : clearedFirst.compile row.body with
      | error error => simp [isFree, isFreeOther]
      | ok formula =>
          have sameDefinition : clearedFirst.definitionOf formula =
              clearedSecond.definitionOf formula :=
            Environment.definitionOf_congr sameLimitsRemoved
              fun name refers target reaches => same target
                ⟨name, Environment.mentions_of_references_compile compiles
                  refers, reaches⟩
          dsimp only
          rw [← sameDefinition]
          cases clearedFirst.definitionOf formula with
          | error error => simp [isFree, isFreeOther]
          | ok definition => simp [Environment.userDefinition?_insert]

theorem limits_compile (environment : Environment) (row : Row) :
    (row.compile environment).2.limits = environment.limits := by
  rcases compile_cases environment row with
    ⟨-, ends⟩ | ⟨error, ends⟩ | ⟨formula, definition, -, -, ends⟩ <;>
    simp [ends]

/-- A row that another compilation would leave as it is, together with its
definition. -/
structure IsFresh (environment : Environment) (row : Row) : Prop where
  state : (row.compile environment).1 = row.state
  definition : (row.compile environment).2.userDefinition? row.name =
    environment.userDefinition? row.name

theorem formula?_eq_some_iff {formula : Formula} :
    row.formula? = some formula ↔ row.state = .compiled formula := by
  rw [formula?]
  cases row.state <;> simp

/-- A row stays fresh while the names that it reads keep their meaning. -/
theorem IsFresh.congr (fresh : row.IsFresh first)
    (definable : IsDefinable row.name)
    (sameLimits : first.limits = second.limits)
    (sameDefinition : second.userDefinition? row.name =
      first.userDefinition? row.name)
    (same : ∀ target, target ≠ row.name → row.Reads first target →
      first.meaning? target = second.meaning? target) :
    row.IsFresh second := by
  obtain ⟨sameState, sameOwn⟩ := compile_congr definable definable rfl rfl
    sameLimits fun target reads => by
      rw [Environment.meaning?_remove, Environment.meaning?_remove]
      split
      next => rfl
      next differs => exact same target differs reads.of_remove
  exact ⟨sameState ▸ fresh.state,
    by rw [← sameOwn, sameDefinition, fresh.definition]⟩

/-- A row is fresh after its own compilation. -/
theorem isFresh_compile (definable : IsDefinable row.name) :
    { row with state := (row.compile environment).1 }.IsFresh
      (row.compile environment).2 := by
  obtain ⟨sameState, sameOwn⟩ := compile_congr definable definable rfl rfl
    (limits_compile environment row).symm fun target _ => by
      rw [Environment.meaning?_remove, Environment.meaning?_remove]
      split
      next => rfl
      next differs =>
          exact Environment.meaning?_congr
            (userDefinition?_compile_of_ne differs).symm
  exact ⟨sameState.symm, sameOwn.symm⟩

/-- The constant that a fresh row defines has the value of its formula in the
environment as it is, with the definition of the row itself. -/
theorem IsFresh.evaluate_eq (fresh : row.IsFresh environment)
    {formula : Formula} (isCompiled : row.formula? = some formula)
    {value : Float} {source : Text}
    (isConstant : environment.userDefinition? row.name =
      some (.constant value source)) :
    environment.evaluate formula.expression 0 = .ok value := by
  rw [formula?_eq_some_iff, ← fresh.state] at isCompiled
  obtain ⟨definition, -, defines, ends⟩ := compile_eq_of_compiled isCompiled
  have sameDefinition := fresh.definition
  rw [ends, Environment.userDefinition?_insert, if_pos rfl, isConstant]
    at sameDefinition
  cases sameDefinition
  rcases Environment.definitionOf_eq_ok_iff.mp defines with
    ⟨-, isFunction⟩ | ⟨-, result, evaluates, isValue⟩
  · contradiction
  · cases isValue
    have follows := (Environment.follows_remove environment row.name
      []).evaluate_eq_ok (by simp) evaluates
    rwa [Expression.rename_same] at follows

section Rename

variable {old new : Text}

/-- What a row defines does not refer to a name that its body does not
mention. -/
theorem renameReferences_compile (notMentioned : mentions row.body old = false)
    (new : Text) (environment : Environment) :
    ((row.compile environment).2.userDefinition? row.name).map
        (UserDefinition.renameReferences old new) =
      (row.compile environment).2.userDefinition? row.name := by
  rcases compile_cases environment row with
    ⟨-, ends⟩ | ⟨error, ends⟩ | ⟨formula, definition, compiles, defines, ends⟩
  · simp [ends]
  · simp [ends]
  · rw [ends, Environment.userDefinition?_insert, if_pos rfl, Option.map_some]
    have notReferenced : formula.references old = false := by
      rw [← Bool.not_eq_true]
      intro refers
      rw [Environment.mentions_of_references_compile compiles refers]
        at notMentioned
      contradiction
    rcases Environment.definitionOf_eq_ok_iff.mp defines with
      ⟨-, rfl⟩ | ⟨-, value, -, rfl⟩
    · simp [UserDefinition.renameReferences, notReferenced]
    · rw [UserDefinition.renameReferences,
        Environment.source_of_compile compiles,
        renameIdentifier_of_not_mentions notMentioned]

/-- A row that compiles is compiled alike after the renaming of a name that it
does not mention, even if it reads that name through functions. -/
theorem compile_eq_of_renames (renames : first.Renames old new second)
    (definableOther : IsDefinable other.name)
    (notNew : row.name ≠ new)
    (isName : other.name = Expression.renameName old new row.name)
    (sameBody : other.body = row.body)
    (notMentioned : mentions row.body old = false)
    (notMentionedNew : mentions row.body new = false) {formula : Formula}
    (isCompiled : (row.compile first).1 = .compiled formula) :
    (row.compile first).1 = (other.compile second).1 ∧
      (row.compile first).2.userDefinition? row.name =
        (other.compile second).2.userDefinition? other.name := by
  obtain ⟨definition, compiles, defines, ends⟩ :=
    compile_eq_of_compiled isCompiled
  have cleared := renames.remove notNew
  rw [← isName] at cleared
  have notBlank : (Text.trim row.body).isEmpty = false := by
    rw [← Bool.not_eq_true]
    intro isBlank
    rw [compile_of_isBlank isBlank] at isCompiled
    contradiction
  have compilesOther :
      (second.remove other.name).2.compile row.body = .ok formula := by
    rw [← compiles]
    refine (Environment.compile_congr cleared.limits
      fun name mentioned => ?_).symm
    refine cleared.classify_eq ?_ ?_
    · rintro rfl
      rw [notMentioned] at mentioned
      contradiction
    · rintro rfl
      rw [notMentionedNew] at mentioned
      contradiction
  have definesOther :
      (second.remove other.name).2.definitionOf formula = .ok definition := by
    refine Environment.definitionOf_eq_ok_iff.mpr ?_
    refine (Environment.definitionOf_eq_ok_iff.mp defines).imp id ?_
    rintro ⟨usesNone, value, evaluates, isConstant⟩
    refine ⟨usesNone, value, cleared.evaluate_eq_ok ?_ evaluates, isConstant⟩
    rw [← Bool.not_eq_true]
    intro refers
    rw [Environment.mentions_of_references_compile compiles refers]
      at notMentioned
    contradiction
  rw [ends, compile_of_not_isBlank (sameBody ▸ notBlank) definableOther,
    sameBody, compilesOther]
  dsimp only
  rw [definesOther]
  simp [Environment.userDefinition?_insert]

/-- A row is compiled alike after the renaming of a name that it does not
read. -/
theorem compile_eq_of_not_reads (renames : first.Renames old new second)
    (definable : IsDefinable row.name) (definableOther : IsDefinable other.name)
    (notNew : row.name ≠ new)
    (isName : other.name = Expression.renameName old new row.name)
    (sameBody : other.body = row.body) (sameOffset : other.offset = row.offset)
    (notReads : ¬ row.Reads first old) (notReadsNew : ¬ row.Reads first new) :
    (row.compile first).1 = (other.compile second).1 ∧
      (row.compile first).2.userDefinition? row.name =
        (other.compile second).2.userDefinition? other.name := by
  have cleared := renames.remove notNew
  rw [← isName] at cleared
  refine compile_congr definable definableOther sameBody sameOffset
    renames.limits fun target reads => ?_
  refine cleared.meaning?_eq ?_ ?_ fun expression isFunction => ?_
  · rintro rfl
    exact notReads reads.of_remove
  · rintro rfl
    exact notReadsNew reads.of_remove
  · rw [← Bool.not_eq_true]
    intro refers
    obtain ⟨name, mentioned, reaches⟩ := reads
    exact notReads (Reads.of_remove ⟨name, mentioned,
      reaches.trans (.through isFunction refers (.self old))⟩)

/-- What a renaming of a definition asks of a row that is not rewritten, so that
the row stays fresh.  A row that failed keeps its error, which can carry names
and a position. -/
structure Ignores (environment : Environment) (old new : Text) (row : Row) :
    Prop where
  notMentioned : mentions row.body old = false
  notReadsNew : ¬ row.Reads environment new
  notReads : row.error? ≠ none → ¬ row.Reads environment old

/-- A row stays fresh through a renaming that it ignores. -/
theorem IsFresh.of_renames (fresh : row.IsFresh first)
    (ignores : row.Ignores first old new)
    (renames : first.Renames old new second)
    (definable : IsDefinable row.name) (definableOther : IsDefinable other.name)
    (notNew : row.name ≠ new)
    (isName : other.name = Expression.renameName old new row.name)
    (sameBody : other.body = row.body) (sameState : other.state = row.state)
    (sameOffset : row.error? ≠ none → other.offset = row.offset)
    {change : UserDefinition → UserDefinition}
    (isChange : change = id ∨ change = UserDefinition.renameReferences old new)
    (follows : second.userDefinition? other.name =
      (first.userDefinition? row.name).map change) :
    other.IsFresh second := by
  have sameDefinition : second.userDefinition? other.name =
      first.userDefinition? row.name := by
    rw [follows, ← fresh.definition]
    rcases isChange with rfl | rfl
    · exact Option.map_id_apply
    · exact renameReferences_compile ignores.notMentioned new first
  have compilesAlike : (row.compile first).1 = (other.compile second).1 ∧
      (row.compile first).2.userDefinition? row.name =
        (other.compile second).2.userDefinition? other.name := by
    cases isState : row.state with
    | compiled formula =>
        have notMentionedNew : mentions row.body new = false := by
          rw [← Bool.not_eq_true]
          exact fun mentioned =>
            ignores.notReadsNew ⟨new, mentioned, .self new⟩
        exact compile_eq_of_renames renames definableOther notNew isName
          sameBody ignores.notMentioned notMentionedNew
          (fresh.state.trans isState)
    | failed error =>
        have isError : row.error? ≠ none := by simp [error?, isState]
        exact compile_eq_of_not_reads renames definable definableOther notNew
          isName sameBody (sameOffset isError) (ignores.notReads isError)
          ignores.notReadsNew
    | blank =>
        have isBlank : (Text.trim row.body).isEmpty = true := by
          have ends := fresh.state.trans isState
          rcases compile_cases first row with
            ⟨isBlank, -⟩ | ⟨error, others⟩ | ⟨formula, definition, -, -, others⟩
          · exact isBlank
          · rw [others] at ends
            contradiction
          · rw [others] at ends
            contradiction
        rw [compile_of_isBlank isBlank,
          compile_of_isBlank (sameBody ▸ isBlank) second]
        simp
  exact ⟨by rw [← compilesAlike.1, fresh.state, sameState],
    by rw [← compilesAlike.2, fresh.definition, sameDefinition]⟩

end Rename

end Row

namespace Worksheet

/-- The row at an index is fresh if compiling it once more changes nothing, and
the constant that it may define has the value that its formula has now. -/
structure IsFreshAt (sheet : Worksheet) (index : Nat) : Prop where
  rows : (sheet.recompile index).rows = sheet.rows
  definitions : ∀ name,
    (sheet.recompile index).environment.userDefinition? name =
      sheet.environment.userDefinition? name
  limits : (sheet.recompile index).environment.limits = sheet.environment.limits
  values : ∀ row formula value source, sheet.rows[index]? = some row →
    row.formula? = some formula →
      sheet.environment.userDefinition? row.name =
          some (.constant value source) →
        sheet.environment.evaluate formula.expression 0 = .ok value

theorem recompile_eq {sheet : Worksheet} {index : Nat} {row : Row}
    (found : sheet.rows[index]? = some row) :
    sheet.recompile index =
      ⟨(row.compile sheet.environment).2, sheet.rows.set index
        { row with state := (row.compile sheet.environment).1 }⟩ := by
  rw [recompile, found]

theorem limits_recompile (sheet : Worksheet) (index : Nat) :
    (sheet.recompile index).environment.limits = sheet.environment.limits := by
  cases found : sheet.rows[index]? with
  | none => rw [recompile, found]
  | some row =>
      rw [recompile_eq found]
      exact Row.limits_compile sheet.environment row

theorem isFreshAt_iff {sheet : Worksheet} {index : Nat} {row : Row}
    (found : sheet.rows[index]? = some row) :
    sheet.IsFreshAt index ↔ row.IsFresh sheet.environment := by
  constructor
  · intro fresh
    have sameRow : (sheet.recompile index).rows[index]? = some row := by
      rw [fresh.rows, found]
    have sameDefinition := fresh.definitions row.name
    rw [recompile_eq found] at sameRow sameDefinition
    obtain ⟨inRange, -⟩ := List.getElem?_eq_some_iff.mp found
    rw [List.getElem?_set_self inRange, Option.some.injEq] at sameRow
    exact ⟨congrArg Row.state sameRow, sameDefinition⟩
  · intro fresh
    refine ⟨?_, fun name => ?_, limits_recompile sheet index, ?_⟩
    · rw [recompile_eq found, fresh.state]
      obtain ⟨inRange, rfl⟩ := List.getElem?_eq_some_iff.mp found
      exact List.set_getElem_self inRange
    · rw [recompile_eq found]
      by_cases same : name = row.name
      · rw [same]
        exact fresh.definition
      · exact Row.userDefinition?_compile_of_ne same
    · intro other formula value source isRow isCompiled isConstant
      obtain rfl : row = other := Option.some.inj (found.symm.trans isRow)
      exact fresh.evaluate_eq isCompiled isConstant

/-- Renaming a definition renames the environment as a whole. -/
theorem renames_of_renameDefinition {sheet : Worksheet} {old new : Text}
    {environment : Environment}
    (visible : sheet.environment.userDefinition? old ≠ none →
      Environment.builtinDefinition? old = none)
    (differs : old ≠ new) (available : sheet.checkName new = .ok ())
    (renames : sheet.renameDefinition old new = .ok environment) :
    sheet.environment.Renames old new environment := by
  obtain ⟨definableNew, free⟩ := Environment.checkAvailable_eq_ok_iff.mp
    (checkName_eq_ok_iff.mp available).1
  have isFree : sheet.environment.meaning? new = none := by
    rw [Environment.meaning?, free]
    rfl
  rw [renameDefinition] at renames
  split at renames
  next =>
      obtain ⟨isDefined, -, -⟩ :=
        (Environment.rename_eq_ok_iff differs).mp renames
      refine ⟨(Environment.limits_rename renames).symm,
        visible isDefined, definableNew.not_builtin, isFree,
        .inr fun name =>
          Environment.meaning?_renameName renames differs⟩
  next notContained =>
      obtain ⟨notBuiltin, undefined⟩ :=
        Environment.contains_eq_false_iff.mp (by simpa using notContained)
      cases renames
      refine ⟨rfl, notBuiltin, definableNew.not_builtin, isFree,
        .inl ⟨?_, fun name => rfl⟩⟩
      rw [Environment.meaning?, undefined]
      rfl

end Worksheet
end GraphingCalculator
