import GraphingCalculator.Proofs.Source.Definitions
import GraphingCalculator.Proofs.Worksheet.Histories

/-!
# The parts of the text of a row

The text of a row is a front, then the body, then blanks.  The front is blank,
or it is the name of the row as it was written, up to the blanks behind the
equals sign; the offset is its size.  Every renaming renames the parts one by
one.  So the text of each row in a run keeps these parts, unless it was refused,
and a name that is legible is the name of its row.
-/

namespace GraphingCalculator

open Text

namespace Row

variable {row : Row} {written? : Option Text} {front back : Text}
variable {old new : Text}

/-- The parts of the text of a row. -/
structure IsLaidOut (row : Row) (written? : Option Text)
    (front back : Text) : Prop where
  isFront : IsFront written? front
  isText : front ++ (row.body ++ back) = row.text
  isOffset : row.offset = byteSize front
  trimmed : IsTrimmed row.body
  white : IsWhite back
  unnamed : written? = none → '=' ∉ row.body

theorem IsLaidOut.congr {other : Row}
    (laidOut : row.IsLaidOut written? front back)
    (sameText : other.text = row.text) (sameBody : other.body = row.body)
    (sameOffset : other.offset = row.offset) :
    other.IsLaidOut written? front back where
  isFront := laidOut.isFront
  isText := by rw [sameBody, sameText, laidOut.isText]
  isOffset := by rw [sameOffset, laidOut.isOffset]
  trimmed := sameBody ▸ laidOut.trimmed
  white := laidOut.white
  unnamed isNone := sameBody ▸ laidOut.unnamed isNone

theorem IsLaidOut.renameIdentifier_text
    (laidOut : row.IsLaidOut written? front back) (old new : Text) :
    renameIdentifier old new row.text =
      renameIdentifier old new front ++
        (renameIdentifier old new row.body ++ back) := by
  rw [← laidOut.isText, renameIdentifier, laidOut.isFront.segments_append,
    List.flatMap_append, ← renameIdentifier, ← renameIdentifier,
    renameIdentifier_append_blanks laidOut.white]

@[simp]
theorem text_rename (old new : Text) (row : Row) :
    (row.rename old new).text = renameIdentifier old new row.text := by
  by_cases same : renameIdentifier old new row.text = row.text <;>
    simp [rename, renameIdentifiers, relabel, same]

@[simp]
theorem body_rename (old new : Text) (row : Row) :
    (row.rename old new).body = renameIdentifier old new row.body :=
  body_renameIdentifiers old new _

@[simp]
theorem name_rename (old new : Text) (row : Row) :
    (row.rename old new).name = Expression.renameName old new row.name :=
  name_renameIdentifiers old new _

@[simp]
theorem state_rename (old new : Text) (row : Row) :
    (row.rename old new).state = row.state :=
  state_renameIdentifiers old new _

theorem offset_rename (old new : Text) (row : Row) :
    (row.rename old new).offset =
      if renameIdentifier old new row.text = row.text then row.offset
      else byteSize (trimEnd (renameIdentifier old new row.text)) -
        byteSize (renameIdentifier old new row.body) := by
  by_cases same : renameIdentifier old new row.text = row.text <;>
    simp [rename, renameIdentifiers, relabel, same]

theorem IsLaidOut.unnamed_rename (laidOut : row.IsLaidOut written? front back)
    (isName : isIdentifier new = true)
    (isNone : written?.map (renameIdentifier old new) = none) :
    '=' ∉ (row.rename old new).body := by
  rw [body_rename]
  exact not_mem_equals_renameIdentifier isName
    (laidOut.unnamed (Option.map_eq_none_iff.mp isNone))

/-- A renaming renames the front and the body, and finds the body again at the
end of the text. -/
theorem IsLaidOut.rename (laidOut : row.IsLaidOut written? front back)
    (isName : isIdentifier new = true) (old : Text)
    (isFound : row.body ≠ [] ∨ renameIdentifier old new row.text = row.text) :
    (row.rename old new).IsLaidOut
      (written?.map (renameIdentifier old new))
      (renameIdentifier old new front) back := by
  have isText := laidOut.renameIdentifier_text old new
  have trimmed := isTrimmed_renameIdentifier isName laidOut.trimmed old
  refine ⟨laidOut.isFront.rename isName old, ?_, ?_, ?_, laidOut.white,
    laidOut.unnamed_rename isName⟩
  · rw [text_rename, body_rename, isText]
  · rw [offset_rename]
    split
    next same =>
        have isPart : segments front ⊆ segments row.text := by
          rw [← laidOut.isText, laidOut.isFront.segments_append]
          exact List.subset_append_left _ _
        rw [renameIdentifier_eq_self_of_subset isPart same, laidOut.isOffset]
    next changes =>
        have newBody := renameIdentifier_ne_nil isName
          (isFound.resolve_right changes) old
        rw [isText, ← List.append_assoc, trimEnd_append ?_ laidOut.white,
          byteSize_append]
        · omega
        · rw [List.getLast?_append_of_ne_nil _ newBody]
          exact trimmed.last
  · rw [body_rename]
    exact trimmed

/-- Behind a body that is empty, the front ends with its equals sign. -/
theorem IsLaidOut.exists_rename (laidOut : row.IsLaidOut written? front back)
    (isName : isIdentifier new = true) (old : Text) :
    ∃ front back, (row.rename old new).IsLaidOut
      (written?.map (renameIdentifier old new)) front back := by
  by_cases isFound :
      row.body ≠ [] ∨ renameIdentifier old new row.text = row.text
  · exact ⟨_, _, laidOut.rename isName old isFound⟩
  push Not at isFound
  obtain ⟨noBody, changes⟩ := isFound
  have isText := laidOut.renameIdentifier_text old new
  have noBodyAfter : renameIdentifier old new row.body = [] := by
    rw [noBody]
    simp [renameIdentifier]
  rw [noBodyAfter, List.nil_append] at isText
  have unnamed (isNone : written?.map (renameIdentifier old new) = none) :=
    laidOut.unnamed_rename isName isNone
  cases laidOut.isFront with
  | blank white =>
      refine absurd ?_ changes
      rw [isText, renameIdentifier_of_isWhite white, ← laidOut.isText, noBody]
      rfl
  | @named indent written gap blanks whiteIndent isWritten isGap white =>
      have whiteRest : IsWhite (blanks ++ back) := by
        intro character member
        rcases List.mem_append.mp member with inBlanks | inBack
        · exact white character inBlanks
        · exact laidOut.white character inBack
      rw [renameIdentifier_blanks_append whiteIndent,
        renameIdentifier_append (isEnding_gap isGap _), renameIdentifier_equals,
        renameIdentifier_of_isWhite white,
        renameIdentifier_of_isWhite (isWhite_gap isGap)] at isText
      have isSplit : renameIdentifier old new row.text =
          (indent ++ (renameIdentifier old new written ++ (gap ++ ['=']))) ++
            (blanks ++ back) := by
        simp [isText]
      refine ⟨indent ++ (renameIdentifier old new written ++ (gap ++ ['='])),
        blanks ++ back, ?_, ?_, ?_, ?_, whiteRest, unnamed⟩
      · exact .named whiteIndent (isWritten.rename isName old) isGap
          (fun character member => absurd member List.not_mem_nil)
      · rw [body_rename, noBodyAfter, text_rename, isSplit, List.nil_append]
      · rw [offset_rename, if_neg changes, noBodyAfter, isSplit,
          trimEnd_append ?_ whiteRest]
        · rfl
        · have isLast : (indent ++ (renameIdentifier old new written ++
              (gap ++ ['=']))).getLast? = some '=' := by
            simp
          rw [isLast]
          rintro last ⟨⟩
          rfl
      · rw [body_rename, noBodyAfter]
        exact ⟨by simp, by simp⟩

/-- A text that is read has its parts, and the name is read from the written
one. -/
theorem exists_isLaidOut_typed {text : Text} {reading : Reading}
    (reads : read text = .ok reading) (row : Row) :
    ∃ written? front back,
      (row.typed text reading).IsLaidOut written? front back ∧
        reading.name? = written?.map lowercase := by
  unfold read at reads
  split at reads
  next =>
      obtain ⟨parts, splits, reads⟩ := bind_eq_ok_iff.mp reads
      split at reads
      · cases reads
        obtain ⟨written, front, back, isFront, isText, isOffset, trimmed, white,
          isName⟩ := SplitDefinition.exists_front_of_ofText splits
        exact ⟨some written, front, back,
          ⟨isFront, isText, isOffset, trimmed, white, by simp⟩,
          by rw [isName]; rfl⟩
      · contradiction
  next noEquals =>
      cases reads
      obtain ⟨trimmed, back, white, split⟩ := exists_trim text
      have notMember : '=' ∉ trim text := by simpa using noEquals
      exact ⟨none, text.takeWhile isBlank, back,
        ⟨.blank (isWhite_takeWhile text), split, rfl, trimmed, white,
          fun _ => notMember⟩, rfl⟩

theorem isLaidOut_empty {name : Text} (isName : isIdentifier name = true) :
    (empty name).IsLaidOut (some name) (name ++ " = ".toList) [] := by
  have isFront : IsFront (some name)
      ([] ++ (name ++ ([' '] ++ '=' :: [' ']))) :=
    .named (fun character member => absurd member List.not_mem_nil)
      (isWritten_of_isIdentifier isName) (.inr rfl) (isWhite_gap (.inr rfl))
  exact ⟨isFront, by simp [empty], rfl, ⟨by simp [empty], by simp [empty]⟩,
    fun character member => absurd member List.not_mem_nil, by simp⟩

/-- A row whose text was refused, or whose text has its parts and a name that is
not written in another way. -/
inductive IsPlaced (row : Row) : Prop
  | refused (noBody : row.body = [])
      (failed : ∃ error, row.state = .failed (.inDefinition error))
  | laidOut {written? : Option Text} {front back : Text}
      (laidOut : row.IsLaidOut written? front back)
      (spelled : ∀ written ∈ written?, IsLegible written → written = row.name)

theorem IsPlaced.exists_isLaidOut (placed : row.IsPlaced)
    (notRefused : row.body ≠ [] ∨ row.error? = none) :
    ∃ written? front back, row.IsLaidOut written? front back ∧
      ∀ written ∈ written?, IsLegible written → written = row.name := by
  cases placed with
  | refused noBody failed =>
      obtain ⟨error, isFailed⟩ := failed
      rcases notRefused with hasBody | noError
      · exact absurd noBody hasBody
      · simp [error?, isFailed] at noError
  | laidOut laidOut spelled => exact ⟨_, _, _, laidOut, spelled⟩

theorem IsPlaced.rename (placed : row.IsPlaced) (definable : IsDefinable new) :
    (row.rename old new).IsPlaced := by
  cases placed with
  | refused noBody failed =>
      refine .refused ?_ (state_rename old new row ▸ failed)
      rw [body_rename, noBody]
      simp [renameIdentifier]
  | @laidOut written? _ _ laidOut spelled =>
      obtain ⟨front, back, renamed⟩ :=
        laidOut.exists_rename definable.identifier old
      refine .laidOut renamed fun written isWritten legible => ?_
      obtain ⟨before, isBefore, rfl⟩ := Option.map_eq_some_iff.mp isWritten
      have legibleBefore := isLegible_of_renameIdentifier legible
      rw [legibleBefore.renameIdentifier_eq, name_rename,
        spelled before isBefore legibleBefore]

theorem IsPlaced.withState (placed : row.IsPlaced) (hasBody : row.body ≠ [])
    (state : State) : { row with state }.IsPlaced := by
  obtain ⟨written?, front, back, laidOut, spelled⟩ :=
    placed.exists_isLaidOut (.inl hasBody)
  exact .laidOut (laidOut.congr rfl rfl rfl) spelled

theorem IsPlaced.step {log : List Compilation} {later : Row}
    (placed : row.IsPlaced) (step : Step log row later) : later.IsPlaced := by
  cases step with
  | keep keeps =>
      cases keeps with
      | enable isEnabled =>
          cases placed with
          | refused noBody failed => exact .refused noBody failed
          | laidOut laidOut spelled =>
              exact .laidOut (laidOut.congr rfl rfl rfl) spelled
      | rename definable => exact placed.rename definable
  | compile hasBody => exact placed.withState hasBody _
  | rename definable hasBody =>
      refine (placed.rename definable).withState ?_ _
      rw [body_rename]
      exact renameIdentifier_ne_nil definable.identifier hasBody _
  | @type text reading _ reads =>
      obtain ⟨written?, front, back, laidOut, isName⟩ :=
        exists_isLaidOut_typed reads row
      refine .laidOut (laidOut.congr rfl rfl rfl)
        fun written isWritten legible => ?_
      rw [Option.mem_def] at isWritten
      subst isWritten
      change written = reading.name?.getD row.name
      rw [isName, Option.map_some, Option.getD_some,
        lowercase_of_isIdentifier legible.isName]
  | refuse text error => exact .refused rfl ⟨error, rfl⟩

theorem isPlaced_of_hasHistory {log : List Compilation}
    (history : row.HasHistory log) : row.IsPlaced := by
  obtain ⟨name, definable, steps⟩ := history
  induction steps with
  | refl =>
      refine .laidOut (isLaidOut_empty definable.identifier)
        fun written isWritten _ => ?_
      exact (Option.some.inj isWritten).symm
  | tail _ step placed => exact placed.step step

end Row
end GraphingCalculator
