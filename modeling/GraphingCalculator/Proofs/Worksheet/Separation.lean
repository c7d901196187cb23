import GraphingCalculator.Proofs.Worksheet.Renaming

/-!
# Rows that stand apart

Some rows of a worksheet can be looked at alone if they mention none of the
other rows.  The definitions of the other rows are left out then, and the rows
that are kept are compiled and evaluated in what is shown of the worksheet as
they are in all of it.  Compiling a row that is hidden shows no change.
-/

namespace GraphingCalculator

namespace Environment

variable {environment : Environment} {visible : Text → Prop} {name : Text}

open Classical in
/-- The environment without the definitions of some names. -/
noncomputable def restrict (visible : Text → Prop) (environment : Environment) :
    Environment :=
  { environment with
    entries := environment.entries.filter fun entry => visible entry.1 }

theorem userDefinition?_restrict (isVisible : visible name) :
    (environment.restrict visible).userDefinition? name =
      environment.userDefinition? name := by
  classical
  have filtered :=
    lookup_filter (fun key => visible key) environment.entries name
  simpa [isVisible, restrict, userDefinition?] using filtered

theorem userDefinition?_restrict_of_not (notVisible : ¬ visible name) :
    (environment.restrict visible).userDefinition? name = none := by
  classical
  have filtered :=
    lookup_filter (fun key => visible key) environment.entries name
  simpa [notVisible, restrict, userDefinition?] using filtered

theorem meaning?_restrict (isVisible : visible name) :
    (environment.restrict visible).meaning? name = environment.meaning? name :=
  meaning?_congr (userDefinition?_restrict isVisible)

theorem meaning?_restrict_of_not (notVisible : ¬ visible name) :
    (environment.restrict visible).meaning? name = none := by
  rw [meaning?, userDefinition?_restrict_of_not notVisible, Option.map_none]

theorem isVisible_of_meaning?_restrict {meaning : Meaning}
    (isMeaning : (environment.restrict visible).meaning? name = some meaning) :
    visible name ∧ environment.meaning? name = some meaning := by
  by_cases isVisible : visible name
  · rw [meaning?_restrict isVisible] at isMeaning
    exact ⟨isVisible, isMeaning⟩
  · rw [meaning?_restrict_of_not isVisible] at isMeaning
    contradiction

end Environment

namespace Worksheet

variable {kept : Nat → Prop} {sheet : Worksheet} {index : Nat} {row : Row}
variable {name : Text}

/-- A name is visible next to the rows that are kept if no other row carries
it. -/
def IsVisible (kept : Nat → Prop) (sheet : Worksheet) (name : Text) : Prop :=
  ∀ index, sheet.names[index]? = some name → kept index

/-- The worksheet without the definitions of the rows that are not kept. -/
noncomputable def shown (kept : Nat → Prop) (sheet : Worksheet) : Worksheet :=
  { sheet with
    environment := sheet.environment.restrict (sheet.IsVisible kept) }

theorem limits_shown (kept : Nat → Prop) (sheet : Worksheet) :
    sheet.environment.limits = (sheet.shown kept).environment.limits :=
  rfl

theorem meaning?_shown (isVisible : sheet.IsVisible kept name) :
    (sheet.shown kept).environment.meaning? name =
      sheet.environment.meaning? name :=
  Environment.meaning?_restrict isVisible

theorem meaning?_shown_of_not (notVisible : ¬ sheet.IsVisible kept name) :
    (sheet.shown kept).environment.meaning? name = none :=
  Environment.meaning?_restrict_of_not notVisible

theorem isVisible_of_meaning?_shown {meaning : Meaning}
    (isMeaning : (sheet.shown kept).environment.meaning? name = some meaning) :
    sheet.IsVisible kept name ∧
      sheet.environment.meaning? name = some meaning :=
  Environment.isVisible_of_meaning?_restrict isMeaning

@[simp]
theorem formulaAt?_shown (index : Nat) :
    (sheet.shown kept).formulaAt? index = sheet.formulaAt? index :=
  rfl

theorem IsVisible.of_names {first second : Worksheet}
    (same : first.names = second.names)
    (isVisible : first.IsVisible kept name) : second.IsVisible kept name := by
  intro index isName
  rw [← same] at isName
  exact isVisible index isName

theorem getElem?_names (found : sheet.rows[index]? = some row) :
    sheet.names[index]? = some row.name := by
  rw [names, List.getElem?_map, found, Option.map_some]

/-- The rows that are kept mention none of the others, and neither does a
function whose name is visible. -/
structure IsSeparated (kept : Nat → Prop) (sheet : Worksheet) : Prop where
  distinct : sheet.names.Nodup
  definable : ∀ name ∈ sheet.names, IsDefinable name
  mentioned : ∀ name index, kept index → sheet.MentionsAt name index →
    sheet.IsVisible kept name
  referenced : ∀ name expression, sheet.IsVisible kept name →
    sheet.environment.meaning? name = some (.function expression) →
      ∀ target, expression.references target = true →
        sheet.IsVisible kept target

namespace IsSeparated

theorem isVisible (separated : sheet.IsSeparated kept) (isKept : kept index)
    (found : sheet.rows[index]? = some row) :
    sheet.IsVisible kept row.name := by
  intro other isOther
  have inRange : index < sheet.names.length := by
    rw [names, List.length_map]
    exact (List.getElem?_eq_some_iff.mp found).1
  rw [← getElem?_names found] at isOther
  rwa [← (List.getElem?_inj inRange separated.distinct).mp isOther.symm]

theorem isVisible_of_reaches (separated : sheet.IsSeparated kept)
    {target : Text} (reaches : sheet.environment.Reaches name target)
    (isVisible : sheet.IsVisible kept name) : sheet.IsVisible kept target := by
  induction reaches with
  | self => exact isVisible
  | through isFunction refers reaches ih =>
      exact ih (separated.referenced _ _ isVisible isFunction _ refers)

/-- What a row reads that is kept is visible. -/
theorem isVisible_of_reads (separated : sheet.IsSeparated kept)
    (isKept : kept index) (found : sheet.rows[index]? = some row)
    {target : Text} (reads : row.Reads sheet.environment target) :
    sheet.IsVisible kept target := by
  obtain ⟨next, mentioned, reaches⟩ := reads
  apply separated.isVisible_of_reaches reaches
  exact separated.mentioned next index isKept ⟨row, found, mentioned⟩

/-- A row that is kept is compiled alike in what is shown. -/
theorem compile_shown (separated : sheet.IsSeparated kept)
    (isKept : kept index) (found : sheet.rows[index]? = some row) :
    (row.compile sheet.environment).1 =
        (row.compile (sheet.shown kept).environment).1 ∧
      (row.compile sheet.environment).2.userDefinition? row.name =
        (row.compile (sheet.shown kept).environment).2.userDefinition?
          row.name := by
  have definable := separated.definable _ (IsConsistent.name_mem found)
  apply Row.compile_congr definable definable rfl rfl
    (limits_shown kept sheet)
  intro target reads
  rw [Environment.meaning?_remove, Environment.meaning?_remove]
  split
  next => rfl
  next =>
      exact (meaning?_shown
        (separated.isVisible_of_reads isKept found reads.of_remove)).symm

/-- The formula of a row that is kept has the same values in what is shown. -/
theorem evaluate_shown (separated : sheet.IsSeparated kept)
    (isKept : kept index) (found : sheet.rows[index]? = some row)
    (settled : row.IsSettled sheet.environment) {formula : Formula}
    (isFormula : row.formula? = some formula) (x : Float) :
    (sheet.shown kept).environment.evaluate formula.expression x =
      sheet.environment.evaluate formula.expression x := by
  refine (Environment.evaluate_congr (limits_shown kept sheet)
    (fun name refers target reaches => ?_) x).symm
  have mentioned := settled.mentioned formula isFormula name refers
  exact (meaning?_shown (separated.isVisible_of_reads isKept found
    ⟨name, mentioned, reaches⟩)).symm

end IsSeparated

theorem names_recompile (sheet : Worksheet) (index : Nat) :
    (sheet.recompile index).names = sheet.names :=
  names_of_outline (outline_recompile sheet index)

theorem MentionsAt.of_outline {first second : Worksheet}
    (same : first.rows.map Row.outline = second.rows.map Row.outline)
    (mentioned : first.MentionsAt name index) :
    second.MentionsAt name index := by
  obtain ⟨row, found, mentioned⟩ := mentioned
  obtain ⟨other, foundOther, -, sameBody⟩ := exists_row_of_outline same found
  exact ⟨other, foundOther, sameBody ▸ mentioned⟩

/-- Where a meaning comes from after a row has been compiled: from before, or
from the body of the row. -/
theorem references_recompile (found : sheet.rows[index]? = some row)
    {expression : Expression}
    (isFunction : (sheet.recompile index).environment.meaning? name =
      some (.function expression)) :
    sheet.environment.meaning? name = some (.function expression) ∨
      name = row.name ∧ ∀ target, expression.references target = true →
        mentions row.body target = true := by
  rw [recompile_eq found] at isFunction
  by_cases isOwn : name = row.name
  · right
    refine ⟨isOwn, ?_⟩
    rcases Row.compile_cases sheet.environment row with
      ⟨-, ends⟩ | ⟨error, ends⟩ | ⟨formula, definition, compiles, defines, ends⟩
    · simp [ends, isOwn, Environment.meaning?_remove] at isFunction
    · simp [ends, isOwn, Environment.meaning?_remove] at isFunction
    · rw [ends, isOwn, Environment.meaning?, Environment.userDefinition?_insert,
        if_pos rfl, Option.map_some, Option.some.injEq] at isFunction
      rcases Environment.definitionOf_eq_ok_iff.mp defines with
        ⟨-, rfl⟩ | ⟨-, value, -, rfl⟩
      · cases isFunction
        intro target
        exact Environment.mentions_of_references_compile compiles
      · contradiction
  · rw [Row.meaning?_compile_of_ne isOwn] at isFunction
    exact .inl isFunction

/-- Compiling a row keeps the rows apart. -/
theorem IsSeparated.recompile (separated : sheet.IsSeparated kept)
    (index : Nat) : (sheet.recompile index).IsSeparated kept := by
  cases found : sheet.rows[index]? with
  | none =>
      rw [Worksheet.recompile, found]
      exact separated
  | some row =>
      have sameNames := names_recompile sheet index
      constructor
      · rw [sameNames]
        exact separated.distinct
      · rw [sameNames]
        exact separated.definable
      · intro name place isKept mentioned
        have wasVisible := separated.mentioned name place isKept
          (mentioned.of_outline (outline_recompile sheet index))
        exact wasVisible.of_names sameNames.symm
      · intro name expression isVisible isFunction target refers
        have wasVisible := isVisible.of_names sameNames
        refine IsVisible.of_names sameNames.symm ?_
        rcases references_recompile found isFunction with before | ⟨rfl, own⟩
        · exact separated.referenced name expression wasVisible before target
            refers
        · exact separated.mentioned target index
            (wasVisible index (getElem?_names found))
            ⟨row, found, own target refers⟩

/-- Compiling a row that is kept is seen in what is shown. -/
theorem IsSeparated.resembles_recompile (separated : sheet.IsSeparated kept)
    (isKept : kept index) :
    Resembles (fun other => ¬ kept other) ((sheet.shown kept).recompile index)
      ((sheet.recompile index).shown kept) := by
  cases found : sheet.rows[index]? with
  | none =>
      have foundShown : (sheet.shown kept).rows[index]? = none := found
      rw [Worksheet.recompile, foundShown, Worksheet.recompile, found]
      exact .refl _ _
  | some row =>
      have foundShown : (sheet.shown kept).rows[index]? = some row := found
      have sameNames := names_recompile sheet index
      obtain ⟨sameState, sameOwn⟩ := separated.compile_shown isKept found
      constructor
      · rw [limits_recompile, ← limits_shown, ← limits_shown, limits_recompile]
      · intro name
        by_cases isVisible : sheet.IsVisible kept name
        · rw [meaning?_shown (isVisible.of_names sameNames.symm),
            recompile_eq found, recompile_eq foundShown]
          by_cases isOwn : name = row.name
          · rw [isOwn]
            exact (Environment.meaning?_congr sameOwn).symm
          · rw [Row.meaning?_compile_of_ne isOwn,
              Row.meaning?_compile_of_ne isOwn, meaning?_shown isVisible]
        · have isOther : name ≠ row.name := by
            rintro rfl
            exact isVisible (separated.isVisible isKept found)
          have notVisible : ¬ (sheet.recompile index).IsVisible kept name :=
            fun stillVisible => isVisible (stillVisible.of_names sameNames)
          rw [recompile_eq foundShown, Row.meaning?_compile_of_ne isOther,
            meaning?_shown_of_not isVisible, meaning?_shown_of_not notVisible]
      · intro place _
        rw [formulaAt?_shown, formulaAt?, formulaAt?, recompile_eq found,
          recompile_eq foundShown, sameState]
        rfl

/-- Compiling a row that is hidden shows no change. -/
theorem resembles_recompile_of_not_kept (notKept : ¬ kept index) :
    Resembles (fun other => ¬ kept other) (sheet.shown kept)
      ((sheet.recompile index).shown kept) := by
  cases found : sheet.rows[index]? with
  | none =>
      rw [Worksheet.recompile, found]
      exact .refl _ _
  | some row =>
      have sameNames := names_recompile sheet index
      constructor
      · rw [← limits_shown, ← limits_shown, limits_recompile]
      · intro name
        by_cases isVisible : sheet.IsVisible kept name
        · have isOther : name ≠ row.name := by
            rintro rfl
            exact notKept (isVisible index (getElem?_names found))
          rw [meaning?_shown isVisible,
            meaning?_shown (isVisible.of_names sameNames.symm),
            recompile_eq found, Row.meaning?_compile_of_ne isOther]
        · have notVisible : ¬ (sheet.recompile index).IsVisible kept name :=
            fun stillVisible => isVisible (stillVisible.of_names sameNames)
          rw [meaning?_shown_of_not isVisible, meaning?_shown_of_not notVisible]
      · intro place isKept
        rw [formulaAt?_shown, formulaAt?_shown, formulaAt?_recompile_of_ne]
        rintro rfl
        exact isKept notKept

/-- If the rows that are kept mention none of the others, then the functions
that are visible do not refer to them. -/
theorem IsConsistent.isSeparated {start : Environment} {present : Text → Text}
    (consistent : IsConsistent start present (fun _ => False) sheet)
    (keepsApart : sheet.KeepsApart)
    (mentioned : ∀ name index, kept index → sheet.MentionsAt name index →
      sheet.IsVisible kept name) : sheet.IsSeparated kept := by
  refine ⟨consistent.distinct, consistent.definable, mentioned, ?_⟩
  intro name expression isVisible isFunction target refers
  obtain ⟨definition, isDefined, isMeaning⟩ :=
    Option.map_eq_some_iff.mp isFunction
  have refersTo := UserDefinition.refersTo_of_meaning isMeaning refers
  by_cases isRow : name ∈ sheet.names
  · obtain ⟨row, member, rfl⟩ := List.mem_map.mp isRow
    obtain ⟨place, found⟩ := List.getElem?_of_mem member
    exact mentioned target place (isVisible place (getElem?_names found))
      ⟨row, found, consistent.mentions_of_refersTo member isDefined refersTo⟩
  · obtain ⟨-, notTarget⟩ :=
      keepsApart name definition isRow isDefined target refersTo
    intro place isTarget
    exact absurd (List.mem_of_getElem? isTarget) notTarget

namespace Resembles

variable {first second : Worksheet} {pending later : Nat → Prop}

theorem mono (resembles : Resembles pending first second)
    (stillPending : ∀ index, pending index → later index) :
    Resembles later first second where
  limits := resembles.limits
  meanings := resembles.meanings
  formulas index notLater :=
    resembles.formulas index fun isPending =>
      notLater (stillPending index isPending)

/-- A row is compiled alike in sheets that resemble each other. -/
theorem recompile (resembles : Resembles pending first second)
    (sameOutline : first.rows.map Row.outline = second.rows.map Row.outline)
    (definable : ∀ name ∈ first.names, IsDefinable name) (index : Nat) :
    Resembles pending (first.recompile index) (second.recompile index) := by
  cases found : first.rows[index]? with
  | none =>
      have missing : second.rows[index]? = none := by
        rw [List.getElem?_eq_none_iff] at found ⊢
        have sameLength := congrArg List.length sameOutline
        rw [List.length_map, List.length_map] at sameLength
        omega
      rw [Worksheet.recompile, found, Worksheet.recompile, missing]
      exact resembles
  | some row =>
      obtain ⟨other, foundOther, sameRow⟩ :=
        exists_outline_of_outline sameOutline found
      have sameName : other.name = row.name :=
        show other.outline.name = row.outline.name by rw [sameRow]
      have sameBody : other.body = row.body :=
        show other.outline.body = row.outline.body by rw [sameRow]
      have sameOffset : other.offset = row.offset :=
        show other.outline.offset = row.outline.offset by rw [sameRow]
      have isDefinable := definable _ (IsConsistent.name_mem found)
      obtain ⟨sameState, sameOwn⟩ := Row.compile_congr isDefinable
        (sameName ▸ isDefinable) sameBody sameOffset resembles.limits
        fun target _ => by
          rw [Environment.meaning?_remove, Environment.meaning?_remove,
            sameName, resembles.meanings]
      constructor
      · rw [limits_recompile, limits_recompile, resembles.limits]
      · intro name
        rw [recompile_eq found, recompile_eq foundOther]
        by_cases isOwn : name = row.name
        · rw [isOwn]
          refine Environment.meaning?_congr ?_
          rw [sameOwn, sameName]
        · rw [Row.meaning?_compile_of_ne isOwn,
            Row.meaning?_compile_of_ne (sameName ▸ isOwn),
            resembles.meanings]
      · intro place notPending
        by_cases same : place = index
        · obtain ⟨inRange, -⟩ := List.getElem?_eq_some_iff.mp found
          obtain ⟨inOther, -⟩ := List.getElem?_eq_some_iff.mp foundOther
          rw [same, recompile_eq found, recompile_eq foundOther, formulaAt?,
            formulaAt?, List.getElem?_set_self inRange,
            List.getElem?_set_self inOther, sameState]
          rfl
        · rw [formulaAt?_recompile_of_ne same, formulaAt?_recompile_of_ne same]
          exact resembles.formulas place notPending

end Resembles

/-- A row is steady if compiling it once more changes nothing that is shown,
apart from the message of an error. -/
def IsSteadyAt (kept : Nat → Prop) (sheet : Worksheet) (index : Nat) : Prop :=
  Resembles (fun other => ¬ kept other) ((sheet.shown kept).recompile index)
    (sheet.shown kept)

theorem isSteadyAt_of_missing (missing : sheet.rows[index]? = none) :
    sheet.IsSteadyAt kept index := by
  have missingShown : (sheet.shown kept).rows[index]? = none := missing
  rw [IsSteadyAt, Worksheet.recompile, missingShown]
  exact .refl _ _

/-- Steady rows can be compiled one after the other. -/
theorem IsSeparated.resembles_recompileAll (separated : sheet.IsSeparated kept)
    {indices : List Nat}
    (steady : ∀ index ∈ indices, kept index → sheet.IsSteadyAt kept index) :
    Resembles (fun other => ¬ kept other) (sheet.shown kept)
        ((indices.foldl Worksheet.recompile sheet).shown kept) ∧
      (indices.foldl Worksheet.recompile sheet).IsSeparated kept := by
  induction indices generalizing sheet with
  | nil => exact ⟨.refl _ _, separated⟩
  | cons index rest ih =>
      have compiled : Resembles (fun other => ¬ kept other) (sheet.shown kept)
          ((sheet.recompile index).shown kept) := by
        by_cases isKept : kept index
        · exact (steady index List.mem_cons_self isKept).symm.trans
            (separated.resembles_recompile isKept)
        · exact resembles_recompile_of_not_kept isKept
      have stillSteady : ∀ other ∈ rest, kept other →
          (sheet.recompile index).IsSteadyAt kept other := by
        intro other member isKept
        have alike := compiled.recompile (outline_recompile sheet index).symm
          separated.definable other
        exact (alike.symm.trans (steady other (List.mem_cons_of_mem _ member)
          isKept)).trans compiled
      obtain ⟨resembles, stillSeparated⟩ :=
        ih (separated.recompile index) stillSteady
      exact ⟨compiled.trans resembles, stillSeparated⟩

/-- A fresh row that is kept is steady. -/
theorem IsSeparated.isSteadyAt (separated : sheet.IsSeparated kept)
    (isKept : kept index) (found : sheet.rows[index]? = some row)
    (fresh : row.IsFresh sheet.environment) : sheet.IsSteadyAt kept index := by
  have foundShown : (sheet.shown kept).rows[index]? = some row := found
  obtain ⟨sameState, sameOwn⟩ := separated.compile_shown isKept found
  have freshShown : row.IsFresh (sheet.shown kept).environment := by
    constructor
    · rw [← sameState]
      exact fresh.state
    · rw [← sameOwn, fresh.definition]
      exact (Environment.userDefinition?_restrict
        (separated.isVisible isKept found)).symm
  exact ((isFreshAt_iff foundShown).mpr freshShown).resembles _

end Worksheet
end GraphingCalculator
