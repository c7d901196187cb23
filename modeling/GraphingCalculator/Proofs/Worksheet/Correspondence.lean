import GraphingCalculator.Proofs.Worksheet.Equivalence
import GraphingCalculator.Proofs.Worksheet.Separation

/-!
# Worksheets that correspond under a renaming

Two worksheets correspond if everything in the one is found in the other under
the new name, and back.  A renaming leads to a worksheet that corresponds to the
one before it, as far as rows are shown that do not mention the new name, and
if those of them that mention the old name are steady.  Steady rows stay steady
then, and so one renaming can follow another.
-/

namespace GraphingCalculator

namespace Worksheet

variable {start environment : Environment} {present : Text → Text}
variable {old new : Text} {pending later kept : Nat → Prop}
variable {first second third sheet renamed : Worksheet} {index : Nat}

/-- Everything in one sheet is carried over to the other one, and back. -/
structure Corresponds (old new : Text) (pending : Nat → Prop)
    (first second : Worksheet) : Prop where
  carries : Carries old new pending first second
  back : Carries new old pending second first

theorem IsRenamedAt.symm (differs : old ≠ new)
    (renamed : IsRenamedAt old new first second index)
    (notMentioned : ¬ first.MentionsAt new index) :
    IsRenamedAt new old second first index := by
  obtain ⟨row, other, found, foundOther, isRenamed⟩ := renamed
  refine ⟨other, row, foundOther, found, isRenamed.symm differs ?_⟩
  rw [← Bool.not_eq_true]
  exact fun mentioned => notMentioned ⟨row, found, mentioned⟩

namespace Corresponds

theorem mono (corresponds : Corresponds old new pending first second)
    (stillPending : ∀ index, pending index → later index) :
    Corresponds old new later first second :=
  ⟨corresponds.carries.mono stillPending, corresponds.back.mono stillPending⟩

theorem congr_left (corresponds : Corresponds old new pending first second)
    (resembles : Resembles pending first third) :
    Corresponds old new pending third second :=
  ⟨corresponds.carries.congr_left resembles,
    corresponds.back.congr_right resembles⟩

theorem congr_right (corresponds : Corresponds old new pending first second)
    (resembles : Resembles pending second third) :
    Corresponds old new pending first third :=
  ⟨corresponds.carries.congr_right resembles,
    corresponds.back.congr_left resembles⟩

theorem recompile (corresponds : Corresponds old new pending first second)
    (differs : old ≠ new) (renamed : IsRenamedAt old new first second index)
    (notMentioned : ¬ first.MentionsAt new index) :
    Corresponds old new (fun other => pending other ∧ other ≠ index)
      (first.recompile index) (second.recompile index) :=
  ⟨corresponds.carries.recompile renamed,
    corresponds.back.recompile (renamed.symm differs notMentioned)⟩

/-- A formula in the second sheet is a renamed formula of the first one. -/
theorem exists_formula (corresponds : Corresponds old new pending first second)
    (notPending : ¬ pending index) {formula : Formula}
    (isFormula : second.formulaAt? index = some formula) :
    ∃ earlier, first.formulaAt? index = some earlier ∧
      formula.expression = earlier.expression.rename old new := by
  obtain ⟨earlier, isEarlier, -⟩ :=
    corresponds.back.formulas index formula isFormula notPending
  obtain ⟨renamed, isRenamed, isExpression⟩ :=
    corresponds.carries.formulas index earlier isEarlier notPending
  rw [isFormula, Option.some.injEq] at isRenamed
  exact ⟨earlier, isEarlier, isRenamed ▸ isExpression⟩

theorem map_expression (corresponds : Corresponds old new pending first second)
    (notPending : ¬ pending index) :
    (second.formulaAt? index).map Formula.expression =
      (first.formulaAt? index).map fun formula =>
        formula.expression.rename old new := by
  cases isFormula : first.formulaAt? index with
  | some formula =>
      obtain ⟨renamed, isRenamed, isExpression⟩ :=
        corresponds.carries.formulas index formula isFormula notPending
      rw [isRenamed, Option.map_some, isExpression]
      rfl
  | none =>
      cases isOther : second.formulaAt? index with
      | none => rfl
      | some other =>
          obtain ⟨earlier, isEarlier, -⟩ :=
            corresponds.exists_formula notPending isOther
          rw [isFormula] at isEarlier
          contradiction

/-- What can be carried over and back did not refer to the new name. -/
theorem not_references (differs : old ≠ new)
    (corresponds : Corresponds old new pending first second)
    (notPending : ¬ pending index) {formula : Formula}
    (isFormula : first.formulaAt? index = some formula) :
    formula.expression.references new = false := by
  obtain ⟨renamed, isRenamed, isExpression⟩ :=
    corresponds.carries.formulas index formula isFormula notPending
  obtain ⟨returned, isReturned, isOriginal⟩ :=
    corresponds.back.formulas index renamed isRenamed notPending
  rw [isFormula, Option.some.injEq] at isReturned
  rw [isReturned, isOriginal]
  exact Expression.references_rename_old differs.symm _

/-- Sheets that correspond to the same sheet resemble each other. -/
theorem resembles (differs : old ≠ new)
    (corresponds : Corresponds old new pending first second)
    (other : Corresponds old new pending first third) :
    Resembles pending second third := by
  constructor
  · exact corresponds.carries.definitions.limits.symm.trans
      other.carries.definitions.limits
  · intro name
    by_cases isOld : name = old
    · rw [isOld, corresponds.back.definitions.free, other.back.definitions.free]
    · have earlierNotNew := Expression.renameName_ne_old differs.symm name
      rw [← Expression.renameName_renameName isOld,
        corresponds.carries.definitions.meaning?_eq
          corresponds.back.definitions earlierNotNew,
        other.carries.definitions.meaning?_eq other.back.definitions
          earlierNotNew]
  · intro index notPending
    rw [corresponds.map_expression notPending, other.map_expression notPending]

end Corresponds

theorem names_replaced (sheet : Worksheet) (environment : Environment)
    (old new : Text) :
    (sheet.replaced environment old new).names =
      sheet.names.map (Expression.renameName old new) := by
  rw [replaced, names_rewrite]
  simp [names, Row.relabel, Function.comp_def]

/-- After a renaming the rows mention the renamed names. -/
theorem mentionsAt_replaced_iff (isName : isIdentifier new = true)
    (replaceable : ∀ source, IsReplaceable old new source) {name : Text} :
    (sheet.replaced environment old new).MentionsAt name index ↔
      ∃ earlier, sheet.MentionsAt earlier index ∧
        Expression.renameName old new earlier = name := by
  have mentionsAfter (row : Row) :
      mentions (renameIdentifier old new row.body) name = true ↔ _ :=
    mentions_renameIdentifier isName (replaceable row.body)
  constructor
  · rintro ⟨renamed, found, mentioned⟩
    rw [getElem?_replaced, Option.map_eq_some_iff] at found
    obtain ⟨row, found, rfl⟩ := found
    rw [Row.body_renameIdentifiers] at mentioned
    obtain ⟨earlier, mentioned, isName⟩ := (mentionsAfter row).mp mentioned
    exact ⟨earlier, ⟨row, found, mentioned⟩, isName⟩
  · rintro ⟨earlier, ⟨row, found, mentioned⟩, isName⟩
    refine ⟨_, by rw [getElem?_replaced, found]; rfl, ?_⟩
    rw [Row.body_renameIdentifiers]
    exact (mentionsAfter row).mpr ⟨earlier, mentioned, isName⟩

/-- A renaming changes the names and the bodies of the rows, and compiles some
of them. -/
theorem IsConsistent.exists_outline_replaced
    (consistent : IsConsistent start present pending sheet)
    (differs : old ≠ new) (renames : sheet.rename old new = .ok renamed) :
    ∃ environment, (sheet.replaced environment old new).rows.map Row.outline =
      renamed.rows.map Row.outline := by
  obtain ⟨-, environment, indices, -, -, rfl⟩ :=
    consistent.exists_replaced differs renames
  exact ⟨environment, (outline_recompileAll _ indices).symm⟩

theorem IsConsistent.exists_row_of_rename
    (consistent : IsConsistent start present pending sheet)
    (differs : old ≠ new) (renames : sheet.rename old new = .ok renamed)
    {other : Row} (found : renamed.rows[index]? = some other) :
    ∃ row, sheet.rows[index]? = some row := by
  obtain ⟨environment, sameOutline⟩ :=
    consistent.exists_outline_replaced differs renames
  obtain ⟨moved, foundMoved, -⟩ :=
    exists_row_of_outline sameOutline.symm found
  rw [getElem?_replaced, Option.map_eq_some_iff] at foundMoved
  obtain ⟨row, found, -⟩ := foundMoved
  exact ⟨row, found⟩

/-- After a renaming the rows carry and mention the renamed names. -/
theorem IsConsistent.names_rename
    (consistent : IsConsistent start present pending sheet)
    (differs : old ≠ new) (renames : sheet.rename old new = .ok renamed) :
    renamed.names = sheet.names.map (Expression.renameName old new) := by
  obtain ⟨environment, sameOutline⟩ :=
    consistent.exists_outline_replaced differs renames
  rw [← names_of_outline sameOutline, names_replaced]

theorem IsConsistent.mentionsAt_rename_iff
    (consistent : IsConsistent start present pending sheet)
    (differs : old ≠ new) (renames : sheet.rename old new = .ok renamed)
    (replaceable : ∀ source, IsReplaceable old new source) {name : Text} :
    renamed.MentionsAt name index ↔
      ∃ earlier, sheet.MentionsAt earlier index ∧
        Expression.renameName old new earlier = name := by
  obtain ⟨available, -⟩ := consistent.rename_eq_ok differs renames
  obtain ⟨definableNew, -⟩ := Environment.checkAvailable_eq_ok_iff.mp
    (checkName_eq_ok_iff.mp available).1
  obtain ⟨environment, sameOutline⟩ :=
    consistent.exists_outline_replaced differs renames
  rw [← mentionsAt_replaced_iff definableNew.identifier replaceable]
  exact ⟨fun mentioned => mentioned.of_outline sameOutline.symm,
    fun mentioned => mentioned.of_outline sameOutline⟩

theorem IsConsistent.isRenamedAt_rename
    (consistent : IsConsistent start present pending sheet)
    (differs : old ≠ new) (renames : sheet.rename old new = .ok renamed)
    (definableOld : IsDefinable old) {row : Row}
    (found : sheet.rows[index]? = some row)
    (replaceable : IsReplaceable old new row.body) :
    IsRenamedAt old new sheet renamed index := by
  obtain ⟨available, -⟩ := consistent.rename_eq_ok differs renames
  obtain ⟨environment, sameOutline⟩ :=
    consistent.exists_outline_replaced differs renames
  exact (consistent.isRenamedAt_of_found available definableOld found
    replaceable).of_outline rfl sameOutline

/-- A row can be renamed without changing the rows that are kept: none of them
mentions the new name, and those that mention the old name are steady. -/
structure CanRename (kept : Nat → Prop) (old new : Text) (sheet : Worksheet) :
    Prop where
  keepsApart : sheet.KeepsApart
  separated : sheet.IsSeparated kept
  isRow : old ∈ sheet.names
  differs : old ≠ new
  available : sheet.checkName new = .ok ()
  unmentioned : ∀ index, kept index → ¬ sheet.MentionsAt new index
  steady : ∀ index, kept index → sheet.MentionsAt old index →
    sheet.IsSteadyAt kept index

/-- A function that is visible refers to a definition that is no row, or it is
the function of a row that is kept and mentions the name. -/
theorem exists_mentionsAt_of_references
    (consistent : IsConsistent start present (fun _ => False) sheet)
    (keepsApart : sheet.KeepsApart) {name target : Text}
    {expression : Expression} (isVisible : sheet.IsVisible kept name)
    (isFunction : sheet.environment.meaning? name =
      some (.function expression))
    (refers : expression.references target = true) :
    (sheet.environment.userDefinition? target ≠ none ∧
        target ∉ sheet.names) ∨
      ∃ index row, kept index ∧ sheet.rows[index]? = some row ∧
        row.name = name ∧ mentions row.body target = true := by
  obtain ⟨definition, isDefined, isMeaning⟩ :=
    Option.map_eq_some_iff.mp isFunction
  have refersTo := UserDefinition.refersTo_of_meaning isMeaning refers
  by_cases isRow : name ∈ sheet.names
  · obtain ⟨row, member, rfl⟩ := List.mem_map.mp isRow
    obtain ⟨index, found⟩ := List.getElem?_of_mem member
    exact .inr ⟨index, row, isVisible index (getElem?_names found), found, rfl,
      consistent.mentions_of_refersTo member isDefined refersTo⟩
  · exact .inl (keepsApart name definition isRow isDefined target refersTo)

/-- A renaming under way.  The rows that wait are still to be compiled. -/
structure IsUnderway (kept : Nat → Prop) (old new : Text)
    (sheet replaced : Worksheet) (waiting : Nat → Prop) (current : Worksheet) :
    Prop where
  corresponds : Corresponds old new
    (fun index => ¬ kept index ∨ waiting index) (sheet.shown kept)
    (current.shown kept)
  separated : current.IsSeparated kept
  outline : replaced.rows.map Row.outline = current.rows.map Row.outline

theorem IsUnderway.mono {replaced current : Worksheet}
    (underway : IsUnderway kept old new sheet replaced pending current)
    (stillPending : ∀ index, pending index → later index) :
    IsUnderway kept old new sheet replaced later current :=
  { underway with
    corresponds := underway.corresponds.mono fun index =>
      Or.imp id (stillPending index) }

namespace CanRename

variable (canRename : CanRename kept old new sheet)
include canRename

theorem definableOld : IsDefinable old :=
  canRename.separated.definable old canRename.isRow

theorem definableNew : IsDefinable new :=
  (Environment.checkAvailable_eq_ok_iff.mp
    (checkName_eq_ok_iff.mp canRename.available).1).1

theorem free : sheet.environment.userDefinition? new = none :=
  (Environment.checkAvailable_eq_ok_iff.mp
    (checkName_eq_ok_iff.mp canRename.available).1).2

theorem meaning?_new : sheet.environment.meaning? new = none := by
  rw [Environment.meaning?, canRename.free, Option.map_none]

theorem isVisible_replaced_iff {name : Text} (notNew : name ≠ new) :
    (sheet.replaced environment old new).IsVisible kept
        (Expression.renameName old new name) ↔
      sheet.IsVisible kept name := by
  have notRow := (checkName_eq_ok_iff.mp canRename.available).2
  apply forall_congr'
  intro index
  rw [names_replaced, List.getElem?_map, Option.map_eq_some_iff]
  constructor
  · intro isKept isName
    exact isKept ⟨name, isName, rfl⟩
  · rintro isKept ⟨other, isOther, same⟩
    apply isKept
    rw [← Expression.renameName_inj ?_ notNew same]
    · exact isOther
    · rintro rfl
      exact notRow (List.mem_of_getElem? isOther)

section Definitions

variable (consistent : IsConsistent start present (fun _ => False) sheet)
include consistent

theorem not_references_new {name : Text} {expression : Expression}
    (isVisible : sheet.IsVisible kept name)
    (isFunction : sheet.environment.meaning? name =
      some (.function expression)) :
    expression.references new = false := by
  rw [← Bool.not_eq_true]
  intro refers
  rcases exists_mentionsAt_of_references consistent canRename.keepsApart
    isVisible isFunction refers with
      ⟨isDefined, -⟩ | ⟨index, row, isKept, found, -, mentioned⟩
  · exact isDefined canRename.free
  · exact canRename.unmentioned index isKept ⟨row, found, mentioned⟩

/-- A function that is visible does not refer to a row without a meaning, since
the rows that mention it cannot be compiled. -/
theorem not_references_old {name : Text} {expression : Expression}
    (isVisible : sheet.IsVisible kept name)
    (isFunction : sheet.environment.meaning? name =
      some (.function expression))
    (undefined : sheet.environment.meaning? old = none) :
    expression.references old = false := by
  rw [← Bool.not_eq_true]
  intro refers
  rcases exists_mentionsAt_of_references consistent canRename.keepsApart
    isVisible isFunction refers with
      ⟨-, notRow⟩ | ⟨index, row, isKept, found, rfl, mentioned⟩
  · exact notRow canRename.isRow
  · have foundShown : (sheet.shown kept).rows[index]? = some row := found
    have oldVisible := canRename.separated.mentioned old index isKept
      ⟨row, found, mentioned⟩
    have undefinedShown :
        (sheet.shown kept).environment.userDefinition? old = none := by
      rw [← meaning?_shown oldVisible, Environment.meaning?,
        Option.map_eq_none_iff] at undefined
      exact undefined
    have unknown :
        (sheet.shown kept).environment.definition? old = none :=
      Environment.definition?_eq_none_iff.mpr
        ⟨canRename.definableOld.not_builtin, undefinedShown⟩
    have same :=
      (canRename.steady index isKept ⟨row, found, mentioned⟩).meanings row.name
    rw [recompile_eq foundShown, (compile_of_unknown unknown mentioned).1,
      Environment.meaning?_remove, if_pos rfl, meaning?_shown isVisible,
      isFunction] at same
    contradiction

variable (renames : sheet.renameDefinition old new = .ok environment)
include renames

/-- A visible name keeps its meaning under its new name. -/
theorem meaning?_renameName {name : Text} (notNew : name ≠ new)
    (isVisible : sheet.IsVisible kept name) :
    environment.meaning? (Expression.renameName old new name) =
      (sheet.environment.meaning? name).map (Meaning.rename old new) := by
  have renamesAll := renames_of_renameDefinition
    (fun _ => canRename.definableOld.not_builtin) canRename.differs
    canRename.available renames
  rcases renamesAll.moves with ⟨undefined, same⟩ | moves
  · by_cases isOld : name = old
    · rw [isOld, Expression.renameName_self, same, canRename.meaning?_new,
        undefined]
      rfl
    · rw [Expression.renameName_of_ne isOld, same]
      cases isMeaning : sheet.environment.meaning? name with
      | none => rfl
      | some meaning =>
          cases meaning with
          | constant value => rfl
          | function expression =>
              have notReferenced := canRename.not_references_old consistent
                isVisible isMeaning undefined
              rw [Option.map_some, Meaning.rename,
                Expression.rename_of_not_references notReferenced]
  · exact moves name notNew

/-- Every visible meaning after the renaming comes from one before it. -/
theorem exists_earlier {name : Text} {meaning : Meaning}
    (isVisible : (sheet.replaced environment old new).IsVisible kept name)
    (isMeaning : environment.meaning? name = some meaning) :
    ∃ earlier before, earlier ≠ new ∧
      Expression.renameName old new earlier = name ∧
        sheet.IsVisible kept earlier ∧
          sheet.environment.meaning? earlier = some before ∧
            before.rename old new = meaning := by
  obtain ⟨-, nothingElse⟩ :=
    renameDefinition_spec canRename.differs canRename.available renames
  have isDefined : environment.userDefinition? name ≠ none := by
    intro undefined
    rw [Environment.meaning?, undefined] at isMeaning
    contradiction
  obtain ⟨earlier, notNew, rfl, -⟩ := nothingElse name isDefined
  have wasVisible := (canRename.isVisible_replaced_iff notNew).mp isVisible
  rw [canRename.meaning?_renameName consistent renames notNew wasVisible,
    Option.map_eq_some_iff] at isMeaning
  obtain ⟨before, wasMeaning, isRenamed⟩ := isMeaning
  exact ⟨earlier, before, notNew, rfl, wasVisible, wasMeaning, isRenamed⟩

/-- The definitions that are visible correspond under the renaming. -/
theorem keeps_replaced :
    (sheet.shown kept).environment.Keeps old new
        ((sheet.replaced environment old new).shown kept).environment ∧
      ((sheet.replaced environment old new).shown kept).environment.Keeps new
        old (sheet.shown kept).environment := by
  have renamesAll := renames_of_renameDefinition
    (fun _ => canRename.definableOld.not_builtin) canRename.differs
    canRename.available renames
  have sameLimits : (sheet.shown kept).environment.limits =
      ((sheet.replaced environment old new).shown kept).environment.limits :=
    renamesAll.limits
  have noNew : (sheet.shown kept).environment.meaning? new = none := by
    rw [Option.eq_none_iff_forall_ne_some]
    intro meaning isMeaning
    have wasMeaning := (isVisible_of_meaning?_shown isMeaning).2
    rw [canRename.meaning?_new] at wasMeaning
    contradiction
  have noOld : ((sheet.replaced environment old new).shown
      kept).environment.meaning? old = none := by
    rw [Option.eq_none_iff_forall_ne_some]
    intro meaning isMeaning
    obtain ⟨isVisible, isMeaning⟩ := isVisible_of_meaning?_shown isMeaning
    obtain ⟨earlier, -, -, isOld, -⟩ :=
      canRename.exists_earlier consistent renames isVisible isMeaning
    exact Expression.renameName_ne_old canRename.differs earlier isOld
  constructor
  · refine ⟨sameLimits, canRename.definableOld.not_builtin,
      canRename.definableNew.not_builtin, noNew, ?_⟩
    intro name meaning isMeaning
    obtain ⟨isVisible, wasMeaning⟩ := isVisible_of_meaning?_shown isMeaning
    have notNew : name ≠ new := by
      rintro rfl
      rw [noNew] at isMeaning
      contradiction
    have moved :=
      canRename.meaning?_renameName consistent renames notNew isVisible
    rw [wasMeaning] at moved
    rwa [meaning?_shown
      ((canRename.isVisible_replaced_iff notNew).mpr isVisible)]
  · refine ⟨sameLimits.symm, canRename.definableNew.not_builtin,
      canRename.definableOld.not_builtin, noOld, ?_⟩
    intro name meaning isMeaning
    obtain ⟨isVisible, isMeaning⟩ := isVisible_of_meaning?_shown isMeaning
    obtain ⟨earlier, before, notNew, rfl, wasVisible, wasMeaning, rfl⟩ :=
      canRename.exists_earlier consistent renames isVisible isMeaning
    rw [Expression.renameName_renameName notNew, meaning?_shown wasVisible,
      wasMeaning]
    cases before with
    | constant value => rfl
    | function expression =>
        have notReferenced :=
          canRename.not_references_new consistent wasVisible wasMeaning
        rw [Meaning.rename, Meaning.rename,
          Expression.rename_rename notReferenced]

/-- Before the rows are compiled that mention the old name, everything else that
is shown corresponds. -/
theorem corresponds_replaced :
    Corresponds old new
      (fun index => ¬ kept index ∨ sheet.MentionsAt old index)
      (sheet.shown kept)
      ((sheet.replaced environment old new).shown kept) := by
  obtain ⟨keeps, keepsBack⟩ := canRename.keeps_replaced consistent renames
  refine ⟨⟨keeps, ?_⟩, ⟨keepsBack, ?_⟩⟩
  · intro index formula isFormula notPending
    push Not at notPending
    refine ⟨formula, by simpa using isFormula, ?_⟩
    rw [Expression.rename_of_not_references]
    exact consistent.references_of_not_mentionsAt notPending.2 isFormula
  · intro index formula isFormula notPending
    push Not at notPending
    rw [formulaAt?_shown, formulaAt?_replaced] at isFormula
    refine ⟨formula, isFormula, ?_⟩
    rw [Expression.rename_of_not_references]
    exact consistent.references_of_not_mentionsAt
      (canRename.unmentioned index notPending.1) isFormula

/-- The rows that are kept stay apart from the others. -/
theorem isSeparated_replaced
    (replaceable : ∀ source, IsReplaceable old new source) :
    (sheet.replaced environment old new).IsSeparated kept := by
  have replacedAll : IsConsistent start _ _
      (sheet.replaced environment old new) :=
    (consistent.relabel canRename.differs canRename.available renames).rewrite
  refine ⟨replacedAll.distinct, replacedAll.definable, ?_, ?_⟩
  · intro name place isKept mentioned
    obtain ⟨earlier, wasMentioned, rfl⟩ := (mentionsAt_replaced_iff
      canRename.definableNew.identifier replaceable).mp mentioned
    have notNew : earlier ≠ new := by
      rintro rfl
      exact canRename.unmentioned place isKept wasMentioned
    exact (canRename.isVisible_replaced_iff notNew).mpr
      (canRename.separated.mentioned earlier place isKept wasMentioned)
  · intro name expression isVisible isFunction target refers
    obtain ⟨earlier, before, -, rfl, wasVisible, wasMeaning, isRenamed⟩ :=
      canRename.exists_earlier consistent renames isVisible isFunction
    cases before with
    | constant value => contradiction
    | function source =>
        cases isRenamed
        obtain ⟨next, refersBefore, rfl⟩ :=
          Expression.references_rename_iff.mp refers
        have notNew : next ≠ new := by
          rintro rfl
          rw [canRename.not_references_new consistent wasVisible wasMeaning]
            at refersBefore
          contradiction
        exact (canRename.isVisible_replaced_iff notNew).mpr
          (canRename.separated.referenced earlier source wasVisible wasMeaning
            next refersBefore)

end Definitions

/-- Compiling a row that mentions the old name goes on with the renaming. -/
theorem recompile_isUnderway {replaced current : Worksheet}
    (underway : IsUnderway kept old new sheet replaced later current)
    (renamed : IsRenamedAt old new sheet replaced index)
    (mentioned : sheet.MentionsAt old index) :
    IsUnderway kept old new sheet replaced
      (fun other => later other ∧ other ≠ index)
      (current.recompile index) := by
  refine ⟨?_, underway.separated.recompile index,
    underway.outline.trans (outline_recompile current index).symm⟩
  by_cases isKept : kept index
  · -- The first sheet shows no change, since the row is steady, and the second
    -- one shows what the compilation does.
    have steady := canRename.steady index isKept mentioned
    have renamedShown : IsRenamedAt old new (sheet.shown kept)
        (current.shown kept) index :=
      renamed.of_outline rfl underway.outline
    have compiled := (underway.corresponds.recompile canRename.differs
      renamedShown (canRename.unmentioned index isKept)).mono
        fun other isPending => isPending.1.imp id
          fun waits => And.intro waits isPending.2
    exact (compiled.congr_left (steady.mono fun other => .inl)).congr_right
      ((underway.separated.resembles_recompile isKept).mono fun other => .inl)
  · refine (underway.corresponds.congr_right ((resembles_recompile_of_not_kept
      isKept).mono fun other => .inl)).mono fun other isPending => ?_
    rcases isPending with notKept | waits
    · exact .inl notKept
    · by_cases same : other = index
      · exact .inl (same ▸ isKept)
      · exact .inr ⟨waits, same⟩

section Renamed

variable (consistent : IsConsistent start present (fun _ => False) sheet)
variable (renames : sheet.rename old new = .ok renamed)
variable (replaceable : ∀ source, IsReplaceable old new source)
include consistent renames replaceable

/-- What is shown after the renaming of a row corresponds to what was shown
before it. -/
theorem corresponds_rename :
    Corresponds old new (fun index => ¬ kept index) (sheet.shown kept)
        (renamed.shown kept) ∧
      renamed.IsSeparated kept := by
  obtain ⟨available, environment, indices, renamesDefinition, isIndex, rfl⟩ :=
    consistent.exists_replaced canRename.differs renames
  have renamedAt {index : Nat} (mentioned : sheet.MentionsAt old index) :
      IsRenamedAt old new sheet (sheet.replaced environment old new) index := by
    obtain ⟨row, found, -⟩ := mentioned
    exact consistent.isRenamedAt_of_found available canRename.definableOld found
      (replaceable row.body)
  have settled : IsUnderway kept old new sheet
      (sheet.replaced environment old new)
      (fun index => sheet.MentionsAt old index ∧ index ∉ indices)
      (indices.foldl Worksheet.recompile
        (sheet.replaced environment old new)) := by
    apply foldl_settles (IsUnderway kept old new sheet
      (sheet.replaced environment old new)) IsUnderway.mono
    · intro waiting current index member underway
      have mentioned := (isIndex index).mp member
      exact canRename.recompile_isUnderway underway (renamedAt mentioned)
        mentioned
    · exact ⟨canRename.corresponds_replaced consistent renamesDefinition,
        canRename.isSeparated_replaced consistent renamesDefinition replaceable,
        rfl⟩
  refine ⟨settled.corresponds.mono fun index isPending => ?_, settled.separated⟩
  apply isPending.resolve_right
  rintro ⟨mentioned, notIndex⟩
  exact notIndex ((isIndex index).mpr mentioned)

/-- A row that is kept stays steady. -/
theorem isSteadyAt_rename (isKept : kept index)
    (steady : sheet.IsSteadyAt kept index) :
    renamed.IsSteadyAt kept index := by
  obtain ⟨corresponds, -⟩ :=
    canRename.corresponds_rename consistent renames replaceable
  cases foundAfter : renamed.rows[index]? with
  | none => exact isSteadyAt_of_missing foundAfter
  | some other =>
      obtain ⟨row, found⟩ := consistent.exists_row_of_rename canRename.differs
        renames foundAfter
      have renamedAt := consistent.isRenamedAt_rename canRename.differs renames
        canRename.definableOld found (replaceable row.body)
      have renamedShown : IsRenamedAt old new (sheet.shown kept)
          (renamed.shown kept) index := renamedAt
      have compiled := (corresponds.recompile canRename.differs renamedShown
        (canRename.unmentioned index isKept)).mono fun other isPending =>
          isPending.1
      exact (compiled.congr_left steady).resembles canRename.differs corresponds

end Renamed
end CanRename
end Worksheet
end GraphingCalculator
