import GraphingCalculator.Proofs.Environment.Naming
import GraphingCalculator.Proofs.Source.Parts
import GraphingCalculator.Text.Lowercase

/-!
# Names as they are written

The name of a definition is made lowercase, and so it can be written with other
characters than it has.  A renaming finds a written name only if it is read as
one identifier: it has to be the name itself, and must not begin with the free
variable.  A name that is written otherwise is not found, and no renaming of a
part of it makes it one that is.
-/

namespace GraphingCalculator

/-- A written name that is read as one identifier. -/
structure IsLegible (written : Text) : Prop where
  isName : isIdentifier written = true
  notVariable : written.head? ≠ some 'x'

theorem isNameCharacter_of_mem {name : Text}
    (isName : isIdentifier name = true) {character : Char}
    (member : character ∈ name) : isNameCharacter character = true := by
  cases name with
  | nil => contradiction
  | cons first rest =>
      rw [isIdentifier, Bool.and_eq_true, List.all_eq_true] at isName
      rcases List.mem_cons.mp member with rfl | inRest
      · simp [isNameCharacter, isName.1]
      · exact isName.2 character inRest

namespace Text

theorem toNat_of_isNameCharacter {character : Char}
    (isName : isNameCharacter character = true) :
    0x30 ≤ character.toNat ∧ character.toNat ≤ 0x39 ∨
      0x61 ≤ character.toNat ∧ character.toNat ≤ 0x7A := by
  simp only [isNameCharacter, Char.isDigit, Bool.or_eq_true, Bool.and_eq_true,
    decide_eq_true_eq, UInt32.le_iff_toNat_le] at isName
  rcases isName with lower | digit
  · exact .inr (toNat_of_isLower lower)
  · exact .inl digit

/-- The characters of names have no other lowercase form. -/
theorem lowercaseCharacter_of_isNameCharacter {character : Char}
    (isName : isNameCharacter character = true) :
    lowercaseCharacter character = [character] := by
  have apart : ∀ range ∈ letterRanges, 0x7A < range.first ∨
      0x39 < range.first ∧ range.last < 0x61 := by
    decide +kernel
  have place := toNat_of_isNameCharacter isName
  have notDotted : character ≠ '\u0130' := by
    rintro rfl
    have code : '\u0130'.toNat = 0x130 := rfl
    omega
  have unchanged :
      letterRanges.findSome? (·.lowercase? character) = none := by
    rw [List.findSome?_eq_none_iff]
    intro range member
    have outside := apart range member
    have notIn : ¬ (range.first ≤ character.toNat ∧
        character.toNat ≤ range.last) := by
      omega
    rw [LetterRange.lowercase?, if_neg]
    simp only [Bool.and_eq_true, decide_eq_true_eq]
    exact fun inRange => notIn inRange.1
  rw [lowercaseCharacter, if_neg notDotted, unchanged]

theorem lowercase_of_isIdentifier {name : Text}
    (isName : isIdentifier name = true) : lowercase name = name := by
  have unchanged (before text : Text)
      (characters : ∀ character ∈ text, isNameCharacter character = true) :
      lowercaseAfter before text = text := by
    induction text generalizing before with
    | nil => rfl
    | cons first rest ih =>
        rw [List.forall_mem_cons] at characters
        have notSigma : first ≠ 'Σ' := by
          rintro rfl
          simp [isNameCharacter] at characters
        rw [lowercaseAfter, if_neg notSigma,
          lowercaseCharacter_of_isNameCharacter characters.1,
          ih (first :: before) characters.2]
        rfl
  exact unchanged [] name fun _ member => isNameCharacter_of_mem isName member

end Text

section Renaming

variable {old new written : Text}

/-- A legible name is renamed as a whole. -/
theorem IsLegible.renameIdentifier_eq (legible : IsLegible written)
    (old new : Text) :
    renameIdentifier old new written =
      Expression.renameName old new written := by
  rw [renameIdentifier,
    segments_of_isIdentifier legible.isName legible.notVariable]
  simp [Segment.renamedText, Expression.renameName]

/-- A renaming takes no characters away but those of names. -/
theorem mem_renameIdentifier_or_isNameCharacter (old new : Text)
    {source : Text} {character : Char} (member : character ∈ source) :
    character ∈ renameIdentifier old new source ∨
      isNameCharacter character = true := by
  rw [← flatMap_text_segments source, List.mem_flatMap] at member
  obtain ⟨piece, isPiece, inPiece⟩ := member
  by_cases isName : piece.reading = .identifier
  · cases Segment.isWellRead_of_mem_segments isPiece with
    | identifier isOther => exact .inr (isNameCharacter_of_mem isOther inPiece)
    | _ => contradiction
  · refine .inl (List.mem_flatMap.mpr ⟨piece, isPiece, ?_⟩)
    rwa [Segment.renamedText, if_neg fun isOld => isName isOld.1]

/-- A source begins as it did before a renaming, or it began with a name. -/
theorem head?_renameIdentifier_or (old new source : Text) :
    (renameIdentifier old new source).head? = source.head? ∨
      ∃ first ∈ source.head?, first.isLower = true ∧ first ≠ 'x' := by
  cases source with
  | nil => exact .inl (by simp [renameIdentifier])
  | cons first rest =>
      obtain ⟨after, split⟩ := Segment.isPrefix_of_beginning first rest
      have nonempty := Segment.beginning_text_ne_nil first rest
      have wellRead := Segment.isWellRead_beginning first rest
      rw [renameIdentifier, segments_cons, List.flatMap_cons]
      generalize Segment.beginning first rest = piece at *
      obtain ⟨head, tail, isText⟩ := List.exists_cons_of_ne_nil nonempty
      obtain ⟨rfl, -⟩ := List.cons.inj (isText ▸ split)
      by_cases isPiece : piece.reading = .identifier
      · cases wellRead with
        | identifier isOther notVariable =>
            dsimp only at isText
            subst isText
            rw [isIdentifier, Bool.and_eq_true] at isOther
            exact .inr ⟨head, rfl, isOther.1, by simpa using notVariable⟩
        | _ => contradiction
      · refine .inl ?_
        rw [Segment.renamedText, if_neg fun isOld => isPiece isOld.1, isText]
        rfl

/-- A renaming does not make a written name legible. -/
theorem isLegible_of_renameIdentifier
    (legible : IsLegible (renameIdentifier old new written)) :
    IsLegible written := by
  have characters : ∀ character ∈ written,
      isNameCharacter character = true := by
    intro character member
    rcases mem_renameIdentifier_or_isNameCharacter old new member with
      isRenamed | isName
    · exact isNameCharacter_of_mem legible.isName isRenamed
    · exact isName
  have starts : ∃ first ∈ written.head?, first.isLower = true ∧
      first ≠ 'x' := by
    rcases head?_renameIdentifier_or old new written with same | starts
    · obtain ⟨first, rest, isRenamed⟩ := List.exists_cons_of_ne_nil
        (ne_nil_of_isIdentifier legible.isName)
      obtain ⟨isName, notVariable⟩ := legible
      rw [isRenamed] at same isName notVariable
      rw [isIdentifier, Bool.and_eq_true] at isName
      exact ⟨first, same.symm, isName.1, by simpa using notVariable⟩
    · exact starts
  obtain ⟨first, isFirst, lower, notVariable⟩ := starts
  obtain ⟨rest, rfl⟩ := List.head?_eq_some_iff.mp isFirst
  refine ⟨?_, by simpa using notVariable⟩
  rw [isIdentifier, Bool.and_eq_true, List.all_eq_true]
  exact ⟨lower, (List.forall_mem_cons.mp characters).2⟩

end Renaming
end GraphingCalculator
