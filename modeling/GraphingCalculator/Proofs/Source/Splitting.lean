import GraphingCalculator.Proofs.Compilation.Positions
import GraphingCalculator.Proofs.Source.Definitions
import GraphingCalculator.Proofs.Source.Slices

/-!
# Splitting a definition by slices

A definition is split at byte positions: of its equals sign, and of the blanks
around its parts.  Written in that way, the splitting slices the text and
subtracts sizes, and neither ever stops it.  The blanks that it refuses are
characters of the text.
-/

namespace GraphingCalculator

open Text

/-- No character disappears in lowercase. -/
theorem Text.isEmpty_lowercase (text : Text) :
    (lowercase text).isEmpty = text.isEmpty := by
  cases text with
  | nil => simp [lowercase, lowercaseAfter]
  | cons first rest =>
      rw [lowercase, lowercaseAfter, lowercaseCharacter]
      grind

namespace SplitDefinition

variable {text left : Text}

/-- A difference of two sizes, of which the second one is not the greater. -/
def subtract {Error : Type} (whole part : Nat) : Except (Stop Error) Nat :=
  if part ≤ whole then .ok (whole - part) else .error .panic

theorem subtract_add {Error : Type} (part rest : Nat) :
    subtract (part + rest) part = (.ok rest : Except (Stop Error) Nat) := by
  rw [subtract, if_pos (Nat.le_add_right part rest), Nat.add_sub_cancel_left]

/-- The name on the left of an equals sign that stands at a byte position. -/
def nameBySlices (left : Text) (equals : Nat) :
    Except (Stop DefinitionError) Text := do
  let core := trimSpacesEnd left
  let trailing ← subtract (byteSize left) (byteSize core)
  if 1 < trailing then do
    let behindCore ← subtract equals trailing
    .error (.refusal (.malformed .severalBeforeEquals (behindCore + 1)))
  else do
    let start ← subtract (byteSize core) (byteSize (trimStart core))
    match find? isBlank (trimStart core) with
    | some space =>
        .error (.refusal (.malformed .insideName (start + space)))
    | none =>
        let name := lowercase (trimStart core)
        if name.isEmpty then .error (.refusal .emptyName) else .ok name

/-- Split a definition into its parts, with slices of it. -/
def ofTextBySlices (text : Text) :
    Except (Stop DefinitionError) SplitDefinition :=
  match find? (· = '=') text with
  | none => .error (.refusal .missingEquals)
  | some equals => do
      let left ← sliceTo text equals
      let name ← nameBySlices left equals
      let right ← sliceFrom text (equals + 1)
      let offset ← subtract (byteSize text) (byteSize (trimStart right))
      return { name, offset, expression := trim right }

theorem byteSize_of_spaces {spaces : Text}
    (isSpaces : ∀ character ∈ spaces, character = ' ') :
    byteSize spaces = spaces.length := by
  induction spaces with
  | nil => rfl
  | cons first rest ih =>
      obtain ⟨rfl, isRest⟩ := List.forall_mem_cons.mp isSpaces
      rw [byteSize_cons, ih isRest, List.length_cons, Nat.add_comm]
      rfl

/-- A name is found by byte positions like by its characters. -/
theorem nameBySlices_eq (left : Text) :
    nameBySlices left (byteSize left) =
      (nameOf left).mapError .refusal := by
  obtain ⟨spaces, isSpaces, split⟩ := trimSpacesEnd_append_spaces left
  have isCore := takeWhile_append_trimStart (trimSpacesEnd left)
  unfold nameBySlices nameOf
  dsimp only
  generalize trimSpacesEnd left = core at split isCore ⊢
  generalize trimStart core = name at isCore ⊢
  have sizes := congrArg byteSize split
  have lengths := congrArg List.length split
  rw [byteSize_append, byteSize_of_spaces isSpaces] at sizes
  rw [List.length_append] at lengths
  have trailing : subtract (byteSize left) (byteSize core) =
      (.ok spaces.length : Except (Stop DefinitionError) Nat) := by
    rw [← sizes, subtract_add]
  have behindCore : subtract (byteSize left) spaces.length =
      (.ok (byteSize core) : Except (Stop DefinitionError) Nat) := by
    rw [← sizes, Nat.add_comm, subtract_add]
  have start : subtract (byteSize core) (byteSize name) =
      (.ok (byteSize (core.takeWhile isBlank)) :
        Except (Stop DefinitionError) Nat) := by
    have coreSizes := congrArg byteSize isCore
    rw [byteSize_append, Nat.add_comm] at coreSizes
    rw [← coreSizes, subtract_add]
  rw [trailing, ok_bind, behindCore, start, find?_eq_takeWhile]
  by_cases several : core.length + 1 < left.length
  · rw [if_pos (by omega), if_pos several]
    rfl
  rw [if_neg (by omega), if_neg several, ok_bind]
  by_cases hasBlank : name.any isBlank = true
  · rw [if_pos hasBlank, if_pos hasBlank]
    rfl
  rw [if_neg hasBlank, if_neg hasBlank]
  dsimp only
  rw [isEmpty_lowercase]
  split <;> rfl

/-- No slice and no difference stops the splitting, and it finds the parts of
the definition. -/
theorem ofTextBySlices_eq (text : Text) :
    ofTextBySlices text = (ofText text).mapError .refusal := by
  unfold ofTextBySlices ofText
  rw [find?_eq_splitAtFirst?]
  cases isSplit : splitAtFirst? '=' text with
  | none => rfl
  | some parts =>
      obtain ⟨left, right⟩ := parts
      have isText := append_of_splitAtFirst?_eq_some isSplit
      have isLeft : sliceTo text (byteSize left) =
          (.ok left : Except (Stop DefinitionError) Text) := by
        rw [← isText, sliceTo_append]
      have isRight : sliceFrom text (byteSize left + 1) =
          (.ok right : Except (Stop DefinitionError) Text) := by
        have isSlice : sliceFrom (left ++ ['='] ++ right)
            (byteSize (left ++ ['='])) =
              (.ok right : Except (Stop DefinitionError) Text) :=
          sliceFrom_append _ _
        rwa [List.append_assoc, List.singleton_append, isText,
          byteSize_append] at isSlice
      have isOffset : subtract (byteSize text) (byteSize (trimStart right)) =
          (.ok (byteSize left + '='.utf8Size +
            byteSize (right.takeWhile isBlank)) :
              Except (Stop DefinitionError) Nat) := by
        have size : byteSize (trimStart right) + (byteSize left +
            '='.utf8Size + byteSize (right.takeWhile isBlank)) =
              byteSize text := by
          have isWhole := congrArg byteSize (takeWhile_append_trimStart right)
          rw [byteSize_append] at isWhole
          rw [← isText, byteSize_append, byteSize_cons, ← isWhole]
          omega
        rw [← size, subtract_add]
      dsimp only [Option.map_some]
      rw [isLeft, ok_bind, nameBySlices_eq, isRight, mapError_bind]
      simp only [isOffset, ok_bind]
      rfl

/-- A blank that a name may not have is blamed where it stands. -/
theorem isStart_of_nameOf {fault : SpacingFault} {position : Nat}
    (fails : nameOf left = .error (.malformed fault position)) :
    IsStart left position := by
  obtain ⟨spaces, isSpaces, split⟩ := trimSpacesEnd_append_spaces left
  have isCore := takeWhile_append_trimStart (trimSpacesEnd left)
  unfold nameOf at fails
  dsimp only at fails
  split at fails
  next several =>
      cases fails
      match spaces, isSpaces, split with
      | [], _, split | [_], _, split =>
          have lengths := congrArg List.length split
          simp at lengths
          omega
      | first :: second :: rest, isSpaces, split =>
          have isFirst := isSpaces first List.mem_cons_self
          refine ⟨trimSpacesEnd left ++ [first], second, rest, ?_, ?_⟩
          · rw [List.append_assoc, List.singleton_append, split]
          · rw [byteSize_append, isFirst]
            rfl
  split at fails
  next hasBlank =>
      cases fails
      have isName := (trimStart (trimSpacesEnd left)).takeWhile_append_dropWhile
        (p := fun character => !isBlank character)
      have nonempty : (trimStart (trimSpacesEnd left)).dropWhile
          (fun character => !isBlank character) ≠ [] := by
        intro visible
        obtain ⟨character, member, white⟩ := List.any_eq_true.mp hasBlank
        have isVisible := List.dropWhile_eq_nil_iff.mp visible character member
        simp [white] at isVisible
      have start := isStart_append ((trimSpacesEnd left).takeWhile isBlank ++
        (trimStart (trimSpacesEnd left)).takeWhile
          fun character => !isBlank character)
        (List.append_ne_nil_of_left_ne_nil nonempty spaces)
      rwa [List.append_assoc, ← List.append_assoc _ _ spaces, isName,
        ← List.append_assoc, isCore, split, byteSize_append] at start
  split at fails <;> cases fails

/-- A fault in the spaces of a definition is blamed on one of its
characters. -/
theorem isStart_of_ofText {fault : SpacingFault} {position : Nat}
    (fails : ofText text = .error (.malformed fault position)) :
    IsStart text position := by
  unfold ofText at fails
  split at fails
  · cases fails
  next left right isSplit =>
      rcases bind_eq_error_iff.mp fails with fails | ⟨name, -, fails⟩
      · have start := (isStart_of_nameOf fails).append [] ('=' :: right)
        rwa [List.nil_append, append_of_splitAtFirst?_eq_some isSplit,
          byteSize_nil, Nat.zero_add] at start
      · contradiction

/-- The splitting refuses a text for its spaces, or for a part that is
missing. -/
theorem error_of_ofText {error : DefinitionError}
    (fails : ofText text = .error error) :
    error = .missingEquals ∨ error = .emptyName ∨
      ∃ fault position, error = .malformed fault position := by
  unfold ofText at fails
  split at fails
  · cases fails
    exact .inl rfl
  rcases bind_eq_error_iff.mp fails with fails | ⟨name, -, fails⟩
  · unfold nameOf at fails
    dsimp only at fails
    repeat' split at fails
    all_goals cases fails
    · exact .inr (.inr ⟨_, _, rfl⟩)
    · exact .inr (.inr ⟨_, _, rfl⟩)
    · exact .inr (.inl rfl)
  · contradiction

/-- A definition without an expression is blamed at its end. -/
theorem offset_of_ofText {parts : SplitDefinition}
    (splits : ofText text = .ok parts) (empty : parts.expression = []) :
    parts.offset = byteSize text := by
  unfold ofText at splits
  split at splits
  · contradiction
  next left right isSplit =>
      obtain ⟨name, -, splits⟩ := bind_eq_ok_iff.mp splits
      cases splits
      obtain ⟨-, back, white, isRight⟩ := exists_trim right
      rw [show trim right = [] from empty, List.nil_append] at isRight
      have isBlanks : right.takeWhile isBlank = right := by
        refine List.takeWhile_eq_self_iff.mpr fun character member => ?_
        rw [← isRight] at member
        exact (List.mem_append.mp member).elim
          (isWhite_takeWhile right character) (white character)
      rw [← append_of_splitAtFirst?_eq_some isSplit]
      simp [isBlanks, Nat.add_assoc]

end SplitDefinition
end GraphingCalculator
