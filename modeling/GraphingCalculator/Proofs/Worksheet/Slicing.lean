import GraphingCalculator.Proofs.Compilation.Positions
import GraphingCalculator.Proofs.Worksheet.Layout

/-!
# The body of a row is a slice of its text

The offset of a row tells where the body begins in the text, in bytes.  A text
that is read has its parts, and a renaming finds the body again in front of the
blanks at the end.  A text that was refused has no body: the empty slice stands
at the start, and after a renaming at the end.
-/

namespace GraphingCalculator

open Text

namespace Row

variable {row later : Row} {old new : Text}

/-- The body stands in the text where the offset says. -/
def IsSliced (row : Row) : Prop :=
  ∃ front back, front ++ (row.body ++ back) = row.text ∧
    byteSize front = row.offset

theorem IsSliced.congr (sliced : row.IsSliced)
    (sameText : later.text = row.text) (sameBody : later.body = row.body)
    (sameOffset : later.offset = row.offset) : later.IsSliced := by
  obtain ⟨front, back, split, size⟩ := sliced
  exact ⟨front, back, by rw [sameText, sameBody, split],
    by rw [sameOffset, size]⟩

theorem IsLaidOut.isSliced {written? : Option Text} {front back : Text}
    (laidOut : row.IsLaidOut written? front back) : row.IsSliced :=
  ⟨front, back, laidOut.isText, laidOut.isOffset.symm⟩

/-- Where there is no body, a renaming that changes the text moves the empty
slice to the end of the new text. -/
theorem IsSliced.rename_of_body_eq_nil (sliced : row.IsSliced)
    (noBody : row.body = []) (old new : Text) :
    (row.rename old new).IsSliced := by
  have stillNoBody : renameIdentifier old new row.body = [] := by
    rw [noBody]
    simp [renameIdentifier]
  have isOffset := offset_rename old new row
  split at isOffset
  next sameText =>
      refine sliced.congr ?_ ?_ isOffset
      · rw [text_rename, sameText]
      · rw [body_rename, stillNoBody, noBody]
  next =>
      obtain ⟨back, -, split⟩ :=
        trimEnd_append_blanks (renameIdentifier old new row.text)
      refine ⟨trimEnd (renameIdentifier old new row.text), back, ?_, ?_⟩
      · rw [body_rename, stillNoBody, text_rename, List.nil_append, split]
      · rw [isOffset, stillNoBody]
        rfl

theorem IsSliced.rename (sliced : row.IsSliced) (placed : row.IsPlaced)
    (definable : IsDefinable new) (old : Text) :
    (row.rename old new).IsSliced := by
  cases placed with
  | refused noBody => exact sliced.rename_of_body_eq_nil noBody old new
  | laidOut laidOut =>
      obtain ⟨front, back, renamed⟩ :=
        laidOut.exists_rename definable.identifier old
      exact renamed.isSliced

/-- Every step of an operation leaves the body in its place, or finds it
again. -/
theorem IsSliced.step {log : List Compilation} (sliced : row.IsSliced)
    (placed : row.IsPlaced) (step : Step log row later) : later.IsSliced := by
  cases step with
  | keep keeps =>
      cases keeps with
      | enable isEnabled => exact sliced.congr rfl rfl rfl
      | rename definable => exact sliced.rename placed definable _
  | compile => exact sliced.congr rfl rfl rfl
  | rename definable =>
      exact (sliced.rename placed definable _).congr rfl rfl rfl
  | type reads =>
      obtain ⟨written?, front, back, laidOut, -⟩ :=
        exists_isLaidOut_typed reads row
      exact laidOut.isSliced.congr rfl rfl rfl
  | refuse text error => exact ⟨[], text, rfl, rfl⟩

theorem isSliced_of_hasHistory {log : List Compilation}
    (history : row.HasHistory log) : row.IsSliced := by
  obtain ⟨name, definable, steps⟩ := history
  induction steps with
  | refl => exact (isLaidOut_empty definable.identifier).isSliced
  | tail steps step sliced =>
      have placed := isPlaced_of_hasHistory ⟨name, definable, steps⟩
      exact sliced.step placed step

end Row

namespace Worksheet

/-- After every run the offset of each row is a boundary of its text, and so is
the position behind the body, and the bytes between them are the body. -/
theorem body_performAll (start : Environment) (operations : List Operation)
    {row : Row}
    (member : row ∈ ((ofEnvironment start).performAll operations).rows) :
    row.offset + byteSize row.body ≤ byteSize row.text ∧
      String.Pos.Raw.IsValid (String.ofList row.text) ⟨row.offset⟩ ∧
      String.Pos.Raw.IsValid (String.ofList row.text)
        ⟨row.offset + byteSize row.body⟩ ∧
      (String.ofList row.text).toByteArray.extract row.offset
          (row.offset + byteSize row.body) =
        (String.ofList row.body).toByteArray := by
  obtain ⟨front, back, split, size⟩ := Row.isSliced_of_hasHistory
    (hasHistories_performAll start operations row member)
  have atStart : IsBoundary row.text row.offset :=
    ⟨front, row.body ++ back, split, size⟩
  have atEnd : IsBoundary row.text (row.offset + byteSize row.body) :=
    ⟨front ++ row.body, back, by rw [List.append_assoc, split],
      by rw [byteSize_append, size]⟩
  refine ⟨atEnd.le_byteSize, isBoundary_iff_isValid.mp atStart,
    isBoundary_iff_isValid.mp atEnd, ?_⟩
  rw [← split, ← size, extract_toByteArray]

/-- The name of another row is renamed in the body, behind a blank of three
bytes. -/
theorem body_performAll_wide :
    let sheet := (ofEnvironment (.empty {})).performAll
      [.pushRow, .pushRow, .edit 0 "r = 2".toList,
        .edit 1 "f =\u3000r x ".toList, .rename "r".toList "area".toList]
    ∃ row ∈ sheet.rows, row.text = "f =\u3000area x ".toList ∧
      row.body = "area x".toList ∧ row.offset = 6 ∧
        String.Pos.Raw.IsValid (String.ofList row.text) ⟨row.offset⟩ ∧
        (String.ofList row.text).toByteArray.extract row.offset
            (row.offset + byteSize row.body) =
          (String.ofList row.body).toByteArray := by
  intro sheet
  have found : ∃ row ∈ sheet.rows, row.text = "f =\u3000area x ".toList ∧
      row.body = "area x".toList ∧ row.offset = 6 := by
    decide +kernel
  obtain ⟨row, member, isText, isBody, isOffset⟩ := found
  obtain ⟨-, atStart, -, sameBytes⟩ := body_performAll _ _ member
  exact ⟨row, member, isText, isBody, isOffset, atStart, sameBytes⟩

end Worksheet
end GraphingCalculator
