import GraphingCalculator.Proofs.Source.Splitting

/-!
# Definitions are put together from their parts

A definition is a name, an equals sign and an expression, with blanks around
them.  Splitting it finds these parts again: the expression is a slice of the
text, and nothing but blanks stands beside it behind the equals sign.  And
whatever a name and an expression are joined with, if it is allowed there, the
splitting gives them back.
-/

namespace GraphingCalculator

open Text

namespace Text

variable {text front back : Text}

theorem eq_nil_of_byteSize_eq_zero (noBytes : byteSize text = 0) :
    text = [] := by
  cases text with
  | nil => rfl
  | cons first rest =>
      have positive := first.utf8Size_pos
      rw [byteSize_cons] at noBytes
      omega

/-- The blanks at the beginning end where a trimmed text begins. -/
theorem takeWhile_isBlank_append (white : IsWhite front)
    (trimmed : IsTrimmed text) (noneBehind : text = [] → back = []) :
    (front ++ (text ++ back)).takeWhile isBlank = front := by
  rw [List.takeWhile_append_of_pos white]
  cases text with
  | nil => simp [noneBehind rfl]
  | cons first rest =>
      have visible := trimmed.head first rfl
      simp [visible]

end Text

namespace SplitDefinition

variable {text front back expression : Text} {parts : SplitDefinition}

/-- The front of a definition ends with blanks behind its first equals sign. -/
theorem exists_left_of_isFront {written : Text}
    (isFront : IsFront (some written) front) :
    ∃ left blanks, '=' ∉ left ∧ IsWhite blanks ∧
      left ++ '=' :: blanks = front := by
  cases isFront with
  | @named indent _ gap blanks whiteIndent isWritten isGap white =>
      refine ⟨indent ++ (written ++ gap), blanks,
        isWritten.not_mem_equals whiteIndent isGap, white, ?_⟩
      simp

/-- A text is split into some parts exactly when it falls into them.  Of a
definition without an expression all blanks belong to the front. -/
theorem ofText_eq_ok_iff :
    ofText text = .ok parts ↔
      ∃ written front back, IsFront (some written) front ∧
        IsTrimmed parts.expression ∧ IsWhite back ∧
        (parts.expression = [] → back = []) ∧
        front ++ (parts.expression ++ back) = text ∧
        parts.name = lowercase written ∧ parts.offset = byteSize front := by
  constructor
  · intro splits
    obtain ⟨written, front, back, isFront, isText, isOffset, trimmed, white,
      isName⟩ := exists_front_of_ofText splits
    refine ⟨written, front, back, isFront, trimmed, white, fun empty => ?_,
      isText, isName, isOffset⟩
    have atEnd := offset_of_ofText splits empty
    have size := congrArg byteSize isText
    rw [empty, List.nil_append, byteSize_append] at size
    exact eq_nil_of_byteSize_eq_zero (by omega)
  · rintro ⟨written, front, back, isFront, trimmed, white, noneBehind, rfl,
      isName, isOffset⟩
    cases isFront with
    | @named indent _ gap blanks whiteIndent isWritten isGap whiteBlanks =>
        have noEquals := isWritten.not_mem_equals whiteIndent isGap
        have isNameOf : nameOf (indent ++ (written ++ gap)) =
            .ok (lowercase written) :=
          nameOf_eq_ok_iff.mpr ⟨indent, written, gap, whiteIndent,
            isWritten.nonempty, isWritten.visible, isGap, rfl, rfl⟩
        have isText : indent ++ (written ++ (gap ++ '=' :: blanks)) ++
            (parts.expression ++ back) = (indent ++ (written ++ gap)) ++
              '=' :: (blanks ++ (parts.expression ++ back)) := by
          simp
        have size : byteSize (indent ++ (written ++ gap)) + '='.utf8Size +
            byteSize blanks = parts.offset := by
          rw [isOffset]
          simp [Nat.add_assoc]
        rw [isText, ofText, splitAtFirst?_append noEquals]
        simp only [isNameOf, ok_bind, trimmed.trim_eq whiteBlanks white,
          takeWhile_isBlank_append whiteBlanks trimmed noneBehind, size,
          ← isName]
        rfl

/-- A name and an expression that are joined by an equals sign are found again.
The blanks behind an expression that is empty stand before it. -/
theorem ofText_joined {indent name gap blanks expression back : Text}
    (isName : isIdentifier name = true) (trimmed : IsTrimmed expression)
    (whiteIndent : IsWhite indent) (isGap : gap = [] ∨ gap = [' '])
    (whiteBlanks : IsWhite blanks) (whiteBack : IsWhite back) :
    ofText (indent ++ (name ++ (gap ++
        '=' :: (blanks ++ (expression ++ back))))) =
      .ok {
        name
        offset := byteSize (indent ++ (name ++ (gap ++ '=' :: blanks))) +
          if expression = [] then byteSize back else 0
        expression } := by
  have isWritten := isWritten_of_isIdentifier isName
  have sameName := (lowercase_of_isIdentifier isName).symm
  rw [ofText_eq_ok_iff]
  by_cases empty : expression = []
  · have white : IsWhite (blanks ++ back) :=
      List.forall_mem_append.mpr ⟨whiteBlanks, whiteBack⟩
    refine ⟨name, _, [], .named whiteIndent isWritten isGap white, trimmed,
      fun _ member => absurd member List.not_mem_nil, fun _ => rfl, ?_,
      sameName, ?_⟩
    · simp [empty]
    · simp [empty]
      omega
  · refine ⟨name, _, back, .named whiteIndent isWritten isGap whiteBlanks,
      trimmed, whiteBack, fun isEmpty => absurd isEmpty empty, ?_, sameName, ?_⟩
    · simp
    · simp [empty]

/-- A definition that is split has its expression where the offset says, trimmed,
and with nothing but blanks beside it behind the first equals sign.  A name and
a trimmed expression, which may have equals signs in it, are what is found when
they are joined by an equals sign, with blanks wherever they may stand.  No
slice and no difference of sizes stops the splitting in any text. -/
theorem ofText_finds_parts :
    (∀ (text : Text) (parts : SplitDefinition), ofText text = .ok parts →
      ∃ left blanks back, '=' ∉ left ∧ IsWhite blanks ∧ IsWhite back ∧
        left ++ '=' :: (blanks ++ (parts.expression ++ back)) = text ∧
        parts.offset = byteSize (left ++ '=' :: blanks) ∧
        IsTrimmed parts.expression ∧
        String.Pos.Raw.IsValid (String.ofList text) ⟨parts.offset⟩ ∧
        String.Pos.Raw.IsValid (String.ofList text)
          ⟨parts.offset + byteSize parts.expression⟩ ∧
        (String.ofList text).toByteArray.extract parts.offset
            (parts.offset + byteSize parts.expression) =
          (String.ofList parts.expression).toByteArray) ∧
    (∀ indent name gap blanks expression back : Text,
      isIdentifier name = true → IsTrimmed expression → IsWhite indent →
        (gap = [] ∨ gap = [' ']) → IsWhite blanks → IsWhite back →
          ∃ offset, ofText (indent ++ (name ++ (gap ++
              '=' :: (blanks ++ (expression ++ back))))) =
            .ok ⟨name, offset, expression⟩) ∧
    ∀ text, ofTextBySlices text = (ofText text).mapError .refusal := by
  refine ⟨fun text parts splits => ?_, ?_, ofTextBySlices_eq⟩
  · obtain ⟨written, front, back, isFront, trimmed, white, -, rfl, -,
      isOffset⟩ := ofText_eq_ok_iff.mp splits
    obtain ⟨left, blanks, noEquals, whiteBlanks, rfl⟩ :=
      exists_left_of_isFront isFront
    have isSlice :=
      isValid_and_extract (left ++ '=' :: blanks) parts.expression back
    rw [← isOffset] at isSlice
    exact ⟨left, blanks, back, noEquals, whiteBlanks, white, by simp, isOffset,
      trimmed, isSlice⟩
  · intro indent name gap blanks expression back isName trimmed whiteIndent
      isGap whiteBlanks whiteBack
    exact ⟨_, ofText_joined isName trimmed whiteIndent isGap whiteBlanks
      whiteBack⟩

/-- Blanks of three bytes, and an expression with an equals sign in it. -/
theorem ofText_finds_parts_wide :
    let indent := "\u3000".toList
    let name := "r2".toList
    let blanks := "\t\u2003".toList
    let expression := "a = é x".toList
    let text := indent ++ (name ++ ([' '] ++
      '=' :: (blanks ++ (expression ++ ['\n']))))
    isIdentifier name = true ∧ IsTrimmed expression ∧ IsWhite indent ∧
      IsWhite blanks ∧ IsWhite ['\n'] ∧
      ∃ offset, ofText text = .ok ⟨name, offset, expression⟩ ∧
        String.Pos.Raw.IsValid (String.ofList text) ⟨offset⟩ ∧
        (String.ofList text).toByteArray.extract offset
            (offset + byteSize expression) =
          (String.ofList expression).toByteArray := by
  intro indent name blanks expression text
  have isName : isIdentifier name = true := by decide +kernel
  have trimmed : IsTrimmed expression := by
    constructor
    · rintro first ⟨⟩
      decide +kernel
    · rintro last ⟨⟩
      decide +kernel
  have whiteIndent : IsWhite indent := by decide +kernel
  have whiteBlanks : IsWhite blanks := by decide +kernel
  have whiteBack : IsWhite ['\n'] := by decide +kernel
  obtain ⟨slices, joins, -⟩ := ofText_finds_parts
  obtain ⟨offset, splits⟩ := joins indent name [' '] blanks expression ['\n']
    isName trimmed whiteIndent (.inr rfl) whiteBlanks whiteBack
  obtain ⟨-, -, -, -, -, -, -, -, -, atStart, -, sameBytes⟩ :=
    slices text ⟨name, offset, expression⟩ splits
  exact ⟨isName, trimmed, whiteIndent, whiteBlanks, whiteBack, offset, splits,
    atStart, sameBytes⟩

end SplitDefinition
end GraphingCalculator
