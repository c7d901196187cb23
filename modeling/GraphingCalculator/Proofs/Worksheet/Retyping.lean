import GraphingCalculator.Proofs.Worksheet.Layout

/-!
# Typing the text of a row again

A text with an equals sign names its row, and a renaming of the row is written
into the text.  So typing the text again renames nothing.  This needs that the
renaming finds the name in the text: a name that is not legible does not follow
the name of its row.
-/

namespace GraphingCalculator

open Text

/-- The name in front of the equals sign of a text, as it is written. -/
def writtenName (text : Text) : Text :=
  trim (text.takeWhile (· ≠ '='))

namespace Row

variable {log : List Compilation} {row origin later : Row}
variable {written : Text} {written? : Option Text} {front back : Text}

/-- The text of a row gives its name and its body. -/
def IsInStep (row : Row) : Prop :=
  ∃ parts, SplitDefinition.ofText row.text = .ok parts ∧
    parts.name = row.name ∧ parts.expression = row.body

/-- A row that was just inserted, or typed into and read. -/
inductive IsNew : Row → Prop
  | empty {name : Text} (definable : IsDefinable name) : IsNew (empty name)
  | typed {text : Text} {reading : Reading} (reads : read text = .ok reading)
      (row : Row) : IsNew (row.typed text reading)

/-- What happens to a row until it is typed into again. -/
inductive Changes : Row → Row → Prop
  | enable (row : Row) (isEnabled : Bool) : Changes row { row with isEnabled }
  | compile (row : Row) (environment : Environment) :
      Changes row (row.compiled environment)
  | rename (row : Row) (old : Text) {new : Text} (definable : IsDefinable new) :
      Changes row (row.rename old new)

/-- A change that the written name follows: it is read as an identifier, or it
stays and so does the name. -/
def Follows (row later : Row) : Prop :=
  Changes row later ∧ (IsLegible (writtenName row.text) ∨
    writtenName later.text = writtenName row.text ∧ later.name = row.name)

section Written

theorem IsLaidOut.writtenName_eq
    (laidOut : row.IsLaidOut (some written) front back) :
    writtenName row.text = written := by
  have isFront := laidOut.isFront
  cases isFront with
  | @named indent _ gap blanks white isWritten isGap whiteBlanks =>
      have isLeft : row.text.takeWhile (· ≠ '=') =
          indent ++ (written ++ gap) := by
        have isText : row.text = (indent ++ (written ++ gap)) ++
            '=' :: (blanks ++ (row.body ++ back)) := by
          rw [← laidOut.isText]
          simp
        have noEquals := isWritten.not_mem_equals white isGap
        rw [isText, List.takeWhile_append_of_pos,
          List.takeWhile_cons_of_neg (by simp), List.append_nil]
        rintro character member
        simpa using ne_of_mem_of_not_mem member noEquals
      rw [writtenName, isLeft]
      exact isWritten.isTrimmed.trim_eq white (isWhite_gap isGap)

theorem IsLaidOut.exists_ofText
    (laidOut : row.IsLaidOut (some written) front back) :
    ∃ parts, SplitDefinition.ofText row.text = .ok parts ∧
      parts.name = lowercase written ∧ parts.expression = row.body := by
  rw [← laidOut.isText]
  exact SplitDefinition.exists_ofText_eq_ok laidOut.isFront laidOut.trimmed
    laidOut.white

theorem IsLaidOut.isInStep_iff
    (laidOut : row.IsLaidOut (some written) front back) :
    row.IsInStep ↔ lowercase written = row.name := by
  obtain ⟨parts, splits, isName, isBody⟩ := laidOut.exists_ofText
  refine ⟨fun ⟨others, splitsToo, isRowName, _⟩ => ?_, fun isRowName =>
    ⟨parts, splits, isName.trans isRowName, isBody⟩⟩
  rw [splits, Except.ok.injEq] at splitsToo
  rw [← isName, splitsToo, isRowName]

theorem IsLaidOut.not_mem_equals (laidOut : row.IsLaidOut none front back) :
    '=' ∉ row.text := by
  rw [← laidOut.isText, List.mem_append, List.mem_append]
  rintro (inFront | inBody | inBack)
  · exact laidOut.isFront.isWhite.not_mem_equals inFront
  · exact laidOut.unnamed rfl inBody
  · exact laidOut.white.not_mem_equals inBack

end Written

section History

/-- The text of a new row names it, or it has no equals sign. -/
theorem IsNew.exists_isLaidOut (isNew : origin.IsNew) :
    ∃ written? front back, origin.IsLaidOut written? front back ∧
      (written? ≠ none → origin.IsInStep) := by
  cases isNew with
  | @empty name definable =>
      have laidOut := isLaidOut_empty definable.identifier
      exact ⟨some name, _, _, laidOut, fun _ => laidOut.isInStep_iff.mpr
        (lowercase_of_isIdentifier definable.identifier)⟩
  | @typed text reading reads row =>
      obtain ⟨written?, front, back, laidOut, isName⟩ :=
        exists_isLaidOut_typed reads row
      refine ⟨written?, front, back, laidOut, fun isSome => ?_⟩
      obtain ⟨written, rfl⟩ := Option.ne_none_iff_exists'.mp isSome
      rw [laidOut.isInStep_iff, Row.typed, isName]
      rfl

/-- A row that was not refused has changed since it was new, and was not typed
into again. -/
theorem HasHistory.exists_isNew (history : row.HasHistory log) :
    (row.body = [] ∧ ∃ error, row.state = .failed (.inDefinition error)) ∨
      ∃ origin, origin.IsNew ∧ Relation.ReflTransGen Changes origin row := by
  obtain ⟨name, definable, steps⟩ := history
  induction steps with
  | refl => exact .inr ⟨_, .empty definable, .refl⟩
  | @tail middle _ _ step ih =>
      cases step with
      | keep keeps =>
          cases keeps with
          | enable isEnabled =>
              exact ih.imp id fun ⟨origin, isNew, changes⟩ =>
                ⟨origin, isNew, changes.tail (.enable _ isEnabled)⟩
          | rename definable keepsBody =>
              refine ih.imp (fun ⟨noBody, failed⟩ => ⟨?_, ?_⟩)
                fun ⟨origin, isNew, changes⟩ =>
                  ⟨origin, isNew, changes.tail (.rename _ _ definable)⟩
              · rw [body_rename, keepsBody, noBody]
              · rwa [state_rename]
      | compile hasBody =>
          obtain ⟨noBody, -⟩ | ⟨origin, isNew, changes⟩ := ih
          · exact absurd noBody hasBody
          · exact .inr ⟨origin, isNew, changes.tail (.compile _ _)⟩
      | rename definable hasBody =>
          obtain ⟨noBody, -⟩ | ⟨origin, isNew, changes⟩ := ih
          · exact absurd noBody hasBody
          · exact .inr ⟨origin, isNew,
              (changes.tail (.rename _ _ definable)).tail (.compile _ _)⟩
      | type reads =>
          exact .inr ⟨_, .typed reads _, .single (.compile _ _)⟩
      | refuse text error => exact .inl ⟨rfl, error, rfl⟩

/-- The parts of a text stay until it is typed again, and so does its equals
sign. -/
theorem IsLaidOut.exists_of_changes
    (laidOut : origin.IsLaidOut written? front back)
    (changes : Relation.ReflTransGen Changes origin row) :
    ∃ laterWritten? laterFront laterBack,
      row.IsLaidOut laterWritten? laterFront laterBack ∧
        (laterWritten? = none ↔ written? = none) := by
  induction changes with
  | refl => exact ⟨_, _, _, laidOut, Iff.rfl⟩
  | tail _ change ih =>
      obtain ⟨middleWritten?, middleFront, middleBack, middle, isNone⟩ := ih
      cases change with
      | enable => exact ⟨_, _, _, middle.congr rfl rfl rfl, isNone⟩
      | compile => exact ⟨_, _, _, middle.congr rfl rfl rfl, isNone⟩
      | rename old definable =>
          obtain ⟨laterFront, laterBack, later⟩ :=
            middle.exists_rename definable.identifier old
          exact ⟨_, _, _, later, Option.map_eq_none_iff.trans isNone⟩

theorem IsLaidOut.exists_named_of_changes
    (laidOut : origin.IsLaidOut (some written) front back)
    (changes : Relation.ReflTransGen Changes origin row) :
    ∃ laterWritten laterFront laterBack,
      row.IsLaidOut (some laterWritten) laterFront laterBack := by
  obtain ⟨laterWritten?, laterFront, laterBack, later, isNone⟩ :=
    laidOut.exists_of_changes changes
  obtain ⟨laterWritten, rfl⟩ := Option.ne_none_iff_exists'.mp
    (isNone.not.mpr (Option.some_ne_none written))
  exact ⟨laterWritten, laterFront, laterBack, later⟩

/-- Out of step are only rows with a written name that a renaming missed. -/
theorem IsInStep.follows (inStep : row.IsInStep)
    (laidOut : row.IsLaidOut (some written) front back)
    (follows : Follows row later) : later.IsInStep := by
  obtain ⟨change, legible | ⟨sameWritten, sameName⟩⟩ := follows
  · rw [laidOut.writtenName_eq] at legible
    cases change with
    | enable => exact inStep
    | compile => exact inStep
    | @rename old new definable =>
        obtain ⟨_, _, renamed⟩ :=
          laidOut.exists_rename definable.identifier old
        have isName := laidOut.isInStep_iff.mp inStep
        rw [lowercase_of_isIdentifier legible.isName] at isName
        rw [renamed.isInStep_iff, legible.renameIdentifier_eq, name_rename,
          isName]
        exact lowercase_of_isIdentifier
          (isIdentifier_renameName definable.identifier
            (isName ▸ legible.isName))
  · obtain ⟨laterWritten, laterFront, laterBack, laidOutLater⟩ :=
      laidOut.exists_named_of_changes (.single change)
    rw [laidOutLater.isInStep_iff, ← laidOutLater.writtenName_eq, sameWritten,
      laidOut.writtenName_eq, sameName]
    exact laidOut.isInStep_iff.mp inStep

theorem IsInStep.followsAll (inStep : origin.IsInStep)
    (laidOut : origin.IsLaidOut (some written) front back)
    (follows : Relation.ReflTransGen Follows origin row) : row.IsInStep := by
  induction follows with
  | refl => exact inStep
  | tail before step ih =>
      obtain ⟨_, _, _, middle⟩ := laidOut.exists_named_of_changes
        (Relation.ReflTransGen.mono (fun _ _ follows => follows.1) _ _ before)
      exact ih.follows middle step

/-- The text of a row in step is read as its name and its body. -/
theorem IsInStep.exists_read (inStep : row.IsInStep)
    (isName : isIdentifier row.name = true) (hasEquals : '=' ∈ row.text) :
    ∃ reading, read row.text = .ok reading ∧
      reading.name? = some row.name ∧ reading.body = row.body := by
  obtain ⟨parts, splits, isRowName, isBody⟩ := inStep
  obtain ⟨-, back, white, split⟩ := exists_trim row.text
  have inTrim : '=' ∈ trim row.text := by
    rw [← split, List.mem_append, List.mem_append] at hasEquals
    exact (hasEquals.resolve_left
      (isWhite_takeWhile row.text).not_mem_equals).resolve_right
        white.not_mem_equals
  refine ⟨⟨some parts.name, parts.expression, parts.offset⟩, ?_,
    congrArg some isRowName, isBody⟩
  rw [read, if_pos (by simpa using inTrim), splits, ok_bind,
    if_pos (isRowName ▸ isName)]
  rfl

end History

end Row

namespace Worksheet

variable {sheet : Worksheet} {index : Nat} {row : Row}

/-- Typing a text that names its row as it is named renames nothing. -/
theorem names_perform_edit (found : sheet.rows[index]? = some row)
    {text : Text} {reading : Row.Reading} (reads : Row.read text = .ok reading)
    (isName : reading.name? = some row.name) :
    (sheet.perform (.edit index text)).names = sheet.names := by
  have retypes : sheet.retype index row.name text =
      (((sheet.modifyRow index (Row.withText text)).modifyRow index
        (Row.withBody reading.body reading.offset)).recompile index) := by
    simp [retype, applyText, applyName, reads, isName, pure, Except.pure]
  have typed : (sheet.modifyRow index (Row.withText text)).names =
      sheet.names := names_modifyRow index fun row => rfl
  rw [perform_edit_eq found, names_of_outline (outline_recompileAll _ _),
    retypes, names_of_outline (outline_recompile _ _), ← typed]
  exact names_modifyRow index fun row => rfl

/-- A row without an error whose text has an equals sign is split into a name
and its body.  The name is the written one in lowercase, and the row was in step
when it was typed.  It is still if all its renamings since then found the name.
Typing the text of a row in step again renames nothing. -/
theorem ofText_performAll (start : Environment) (operations : List Operation) :
    let sheet := (ofEnvironment start).performAll operations
    ∀ row ∈ sheet.rows, row.error? = none → '=' ∈ row.text →
      ∃ origin parts, origin.IsNew ∧ origin.IsInStep ∧
        Relation.ReflTransGen Row.Changes origin row ∧
        SplitDefinition.ofText row.text = .ok parts ∧
        parts.name = lowercase (writtenName row.text) ∧
        parts.expression = row.body ∧
        (IsLegible (writtenName row.text) ∨
            Relation.ReflTransGen Row.Follows origin row →
          row.IsInStep) ∧
        (row.IsInStep → ∀ index, sheet.rows[index]? = some row →
          (sheet.perform (.edit index row.text)).names = sheet.names) := by
  intro sheet row member noError hasEquals
  have history := hasHistories_performAll start operations row member
  obtain ⟨-, error, isFailed⟩ | ⟨origin, isNew, changes⟩ :=
    history.exists_isNew
  · simp [Row.error?, isFailed] at noError
  obtain ⟨originWritten?, _, _, laidOutOrigin, named⟩ := isNew.exists_isLaidOut
  obtain ⟨written?, front, back, laidOut, spelled⟩ :=
    (Row.isPlaced_of_hasHistory history).exists_isLaidOut (.inr noError)
  obtain ⟨written, rfl⟩ : ∃ written, written? = some written := by
    refine Option.ne_none_iff_exists'.mp ?_
    rintro rfl
    exact laidOut.not_mem_equals hasEquals
  obtain ⟨originWritten, rfl⟩ : ∃ originWritten, originWritten? =
      some originWritten := by
    refine Option.ne_none_iff_exists'.mp ?_
    rintro rfl
    obtain ⟨_, _, _, later, noName⟩ := laidOutOrigin.exists_of_changes changes
    obtain rfl := noName.mpr rfl
    exact later.not_mem_equals hasEquals
  have originInStep := named (Option.some_ne_none originWritten)
  obtain ⟨parts, splits, isName, isBody⟩ := laidOut.exists_ofText
  rw [laidOut.writtenName_eq]
  refine ⟨origin, parts, isNew, originInStep, changes, splits, isName, isBody,
    ?_, fun inStep index found => ?_⟩
  · rintro (legible | follows)
    · rw [laidOut.isInStep_iff, lowercase_of_isIdentifier legible.isName]
      exact spelled written rfl legible
    · exact originInStep.followsAll laidOutOrigin follows
  · have consistent :=
      (isConsistent_ofEnvironment start).performAll operations
    have definable :=
      consistent.definable row.name (IsConsistent.name_mem found)
    obtain ⟨reading, reads, isRowName, -⟩ :=
      inStep.exists_read definable.identifier hasEquals
    exact names_perform_edit found reads isRowName

/-- A name that is written in lowercase follows the name of the row. -/
theorem names_perform_edit_lowercase :
    let sheet := (ofEnvironment (.empty {})).performAll
      [.pushRow, .edit 0 "area = x".toList,
        .rename "area".toList "b".toList]
    ∃ row ∈ sheet.rows, row.name = "b".toList ∧ row.IsInStep ∧
      (sheet.perform (.edit 0 row.text)).names = sheet.names := by
  intro sheet
  have found : ∃ row, sheet.rows[0]? = some row ∧ row.error? = none ∧
      row.text = "b = x".toList ∧ row.name = "b".toList := by
    decide +kernel
  obtain ⟨row, isFirst, noError, isText, isName⟩ := found
  have member := List.mem_of_getElem? isFirst
  have legible : IsLegible (writtenName row.text) := by
    rw [isText]
    exact ⟨by decide, by decide⟩
  obtain ⟨origin, parts, -, -, -, -, -, -, staysInStep, retypes⟩ :=
    ofText_performAll _ _ row member noError (by rw [isText]; decide)
  have inStep := staysInStep (.inl legible)
  exact ⟨row, member, isName, inStep, retypes inStep 0 isFirst⟩

/-- A name that is not written in lowercase is not found by a renaming.  Then
the text names the row as before, and typing it again renames the row back. -/
theorem names_perform_edit_capital :
    let sheet := (ofEnvironment (.empty {})).performAll
      [.pushRow, .edit 0 "Area = x".toList,
        .rename "area".toList "b".toList]
    ∃ row ∈ sheet.rows, row.error? = none ∧ '=' ∈ row.text ∧
      row.text = "Area = x".toList ∧ row.name = "b".toList ∧ ¬ row.IsInStep ∧
        (sheet.perform (.edit 0 row.text)).names = ["area".toList] := by
  intro sheet
  have found : ∃ row ∈ sheet.rows, row.error? = none ∧
      row.text = "Area = x".toList ∧ row.name = "b".toList ∧
        (sheet.perform (.edit 0 row.text)).names = ["area".toList] := by
    decide +kernel
  obtain ⟨row, member, noError, isText, isName, renamed⟩ := found
  have splits : (SplitDefinition.ofText row.text).map SplitDefinition.name =
      .ok "area".toList := by
    rw [isText]
    decide +kernel
  refine ⟨row, member, noError, ?_, isText, isName, ?_, renamed⟩
  · rw [isText]
    decide
  · rintro ⟨parts, isSplit, isRowName, -⟩
    rw [isSplit, Except.map, isRowName, isName] at splits
    contradiction

end Worksheet
end GraphingCalculator
