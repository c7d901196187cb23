import GraphingCalculator.Definition.Splitting
import GraphingCalculator.Proofs.Source.Legibility

/-!
# The parts of a definition

A definition is a front, an expression and blanks.  The front is the name as it
is written, with blanks before it and at most one space behind it, then the
equals sign, then blanks.  Splitting a definition finds these parts, whatever
characters the name is written with, and a renaming renames them one by one.
-/

namespace GraphingCalculator

open Text

/-- What can stand before an equals sign as the name of a row. -/
structure IsWritten (written : Text) : Prop where
  nonempty : written ≠ []
  visible : ∀ character ∈ written, isBlank character = false
  noEquals : '=' ∉ written

/-- What can stand before the body of a row, and the name that is written
there. -/
inductive IsFront : Option Text → Text → Prop
  | blank {blanks : Text} (white : IsWhite blanks) : IsFront none blanks
  | named {indent written gap blanks : Text} (whiteIndent : IsWhite indent)
      (isWritten : IsWritten written) (isGap : gap = [] ∨ gap = [' '])
      (white : IsWhite blanks) :
      IsFront (some written)
        (indent ++ (written ++ (gap ++ '=' :: blanks)))

section Front

variable {written front indent gap blanks : Text} {written? : Option Text}
variable {old new : Text}

theorem isWhite_gap (isGap : gap = [] ∨ gap = [' ']) : IsWhite gap := by
  rcases isGap with rfl | rfl
  · exact fun character member => absurd member List.not_mem_nil
  · exact fun character member => by
      rw [List.mem_singleton.mp member]
      rfl

theorem isEnding_gap (isGap : gap = [] ∨ gap = [' ']) (rest : Text) :
    IsEnding (gap ++ '=' :: rest) := by
  rw [IsEnding, List.dropWhile_append_of_pos (isWhite_gap isGap)]
  exact isEnding_equals rest

theorem isWritten_of_isIdentifier (isName : isIdentifier written = true) :
    IsWritten written := by
  obtain ⟨nonempty, plain⟩ := isPlain_of_isIdentifier isName
  refine ⟨nonempty, fun character member =>
    isBlank_of_isPlain (plain character member), fun member => ?_⟩
  have isPlainEquals := plain '=' member
  simp [isPlain] at isPlainEquals

theorem IsWritten.isTrimmed (isWritten : IsWritten written) :
    IsTrimmed written where
  head first isFirst := isWritten.visible first (List.mem_of_head? isFirst)
  last last isLast := isWritten.visible last (List.mem_of_getLast? isLast)

theorem IsWritten.not_mem_equals (isWritten : IsWritten written)
    (white : IsWhite indent) (isGap : gap = [] ∨ gap = [' ']) :
    '=' ∉ indent ++ (written ++ gap) := by
  simp [white.not_mem_equals, (isWhite_gap isGap).not_mem_equals,
    isWritten.noEquals]

/-- Segments of the front and of what follows it are read apart. -/
theorem IsFront.segments_append (isFront : IsFront written? front)
    (rest : Text) :
    segments (front ++ rest) = segments front ++ segments rest := by
  cases isFront with
  | blank white => exact segments_blanks_append white rest
  | @named indent written gap blanks whiteIndent isWritten isGap white =>
      simp only [List.append_assoc, List.cons_append]
      rw [segments_blanks_append whiteIndent,
        segments_blanks_append whiteIndent,
        GraphingCalculator.segments_append (isEnding_gap isGap _),
        GraphingCalculator.segments_append (isEnding_gap isGap _),
        segments_blanks_append (isWhite_gap isGap),
        segments_blanks_append (isWhite_gap isGap), segments_equals,
        segments_equals, segments_blanks_append white]
      simp

/-- A renaming brings in no characters but those of a name. -/
theorem mem_or_isPlain_of_mem_renameIdentifier
    (isName : isIdentifier new = true) {source : Text} {character : Char}
    (member : character ∈ renameIdentifier old new source) :
    character ∈ source ∨ isPlain character = true := by
  obtain ⟨piece, isPiece, inPiece⟩ := List.mem_flatMap.mp member
  unfold Segment.renamedText at inPiece
  split at inPiece
  · exact .inr ((isPlain_of_isIdentifier isName).2 character inPiece)
  · refine .inl ?_
    rw [← flatMap_text_segments source]
    exact List.mem_flatMap.mpr ⟨piece, isPiece, inPiece⟩

theorem not_mem_equals_renameIdentifier (isName : isIdentifier new = true)
    {source : Text} (noEquals : '=' ∉ source) :
    '=' ∉ renameIdentifier old new source := by
  intro member
  rcases mem_or_isPlain_of_mem_renameIdentifier isName member with
    inSource | plain
  · exact noEquals inSource
  · simp [isPlain] at plain

theorem IsWritten.rename (isName : isIdentifier new = true) (old : Text)
    (isWritten : IsWritten written) :
    IsWritten (renameIdentifier old new written) := by
  refine ⟨renameIdentifier_ne_nil isName isWritten.nonempty old,
    fun character member => ?_, fun isEquals => ?_⟩
  · exact (mem_or_isPlain_of_mem_renameIdentifier isName member).elim
      (isWritten.visible character) isBlank_of_isPlain
  · exact not_mem_equals_renameIdentifier isName isWritten.noEquals isEquals

/-- Only the name in a front can change. -/
theorem IsFront.rename (isName : isIdentifier new = true) (old : Text)
    (isFront : IsFront written? front) :
    IsFront (written?.map (renameIdentifier old new))
      (renameIdentifier old new front) := by
  cases isFront with
  | blank white =>
      rw [renameIdentifier_of_isWhite white]
      exact .blank white
  | named whiteIndent isWritten isGap white =>
      rw [renameIdentifier_blanks_append whiteIndent,
        renameIdentifier_append (isEnding_gap isGap _), renameIdentifier_equals,
        renameIdentifier_of_isWhite white,
        renameIdentifier_of_isWhite (isWhite_gap isGap)]
      exact .named whiteIndent (isWritten.rename isName old) isGap white

theorem IsFront.isWhite (isFront : IsFront none front) : IsWhite front := by
  cases isFront with
  | blank white => exact white

theorem IsFront.mem_equals (isFront : IsFront (some written) front) :
    '=' ∈ front := by
  cases isFront with
  | named => simp

end Front

theorem Text.splitAtFirst?_append {mark : Char} {before : Text}
    (notBefore : mark ∉ before) (after : Text) :
    splitAtFirst? mark (before ++ mark :: after) = some (before, after) := by
  induction before with
  | nil => simp [splitAtFirst?]
  | cons first rest ih =>
      rw [List.mem_cons, not_or] at notBefore
      simp [splitAtFirst?, Ne.symm notBefore.1, ih notBefore.2]

theorem Text.not_mem_of_splitAtFirst? {mark : Char} {text before after : Text}
    (split : splitAtFirst? mark text = some (before, after)) :
    mark ∉ before := by
  induction text generalizing before with
  | nil => simp [splitAtFirst?] at split
  | cons first rest ih =>
      by_cases isMark : first = mark
      · simp only [splitAtFirst?, isMark, if_true, Option.some.injEq,
          Prod.mk.injEq] at split
        simp [← split.1]
      · simp only [splitAtFirst?, isMark, if_false, Option.map_eq_some_iff,
          Prod.mk.injEq] at split
        obtain ⟨⟨inner, tail⟩, found, rfl, rfl⟩ := split
        simp [Ne.symm isMark, ih found]

namespace SplitDefinition

variable {text left name : Text}

theorem trimSpacesEnd_append_spaces (text : Text) :
    ∃ spaces, (∀ character ∈ spaces, character = ' ') ∧
      trimSpacesEnd text ++ spaces = text :=
  ⟨text.rtakeWhile (· = ' '),
    fun _ member => by simpa using List.mem_rtakeWhile_imp member,
    List.rdropWhile_append_rtakeWhile⟩

theorem trimSpacesEnd_append {core spaces : Text}
    (last : ∀ last ∈ core.getLast?, last ≠ ' ')
    (isSpaces : ∀ character ∈ spaces, character = ' ') :
    trimSpacesEnd (core ++ spaces) = core :=
  rdropWhile_append
    (fun final isLast => decide_eq_false (last final isLast))
    fun character member => decide_eq_true (isSpaces character member)

/-- The name on the left of an equals sign has blanks before it, at most one
space behind it, and none inside. -/
theorem nameOf_eq_ok_iff :
    nameOf left = .ok name ↔ ∃ indent written gap, IsWhite indent ∧
      written ≠ [] ∧ (∀ character ∈ written, isBlank character = false) ∧
        (gap = [] ∨ gap = [' ']) ∧ left = indent ++ (written ++ gap) ∧
          name = lowercase written := by
  constructor
  · intro isName
    obtain ⟨spaces, isSpaces, split⟩ := trimSpacesEnd_append_spaces left
    have core := takeWhile_append_trimStart (trimSpacesEnd left)
    unfold nameOf at isName
    dsimp only at isName
    split at isName
    · contradiction
    next few =>
        split at isName
        · contradiction
        next noBlank =>
            split at isName
            · contradiction
            next nonempty =>
                cases isName
                refine ⟨(trimSpacesEnd left).takeWhile isBlank,
                  trimStart (trimSpacesEnd left), spaces,
                  isWhite_takeWhile _, by simpa using nonempty,
                  by simpa using noBlank, ?_, ?_, rfl⟩
                · have lengths := congrArg List.length split
                  rw [List.length_append] at lengths
                  cases spaces with
                  | nil => exact .inl rfl
                  | cons first rest =>
                      rw [List.length_cons] at lengths
                      have noRest : rest = [] :=
                        List.eq_nil_of_length_eq_zero (by omega)
                      rw [isSpaces first List.mem_cons_self, noRest]
                      exact .inr rfl
                · rw [← List.append_assoc, core, split]
  · rintro ⟨indent, written, gap, white, nonempty, visible, isGap, rfl, rfl⟩
    have isCore : trimSpacesEnd (indent ++ (written ++ gap)) =
        indent ++ written := by
      rw [← List.append_assoc]
      refine trimSpacesEnd_append (fun last isLast => ?_) ?_
      · rw [List.getLast?_append_of_ne_nil _ nonempty] at isLast
        rintro rfl
        have isVisible := visible ' ' (List.mem_of_getLast? isLast)
        contradiction
      · rcases isGap with rfl | rfl <;> simp
    have isName : trimStart (indent ++ written) = written :=
      trimStart_append white fun first isFirst =>
        visible first (List.mem_of_head? isFirst)
    have few : gap.length ≤ 1 := by
      rcases isGap with rfl | rfl <;> simp
    have noBlank : written.any isBlank = false := by
      simpa using visible
    have notEmpty : written.isEmpty = false := by simpa using nonempty
    have notSeveral : ¬ (indent ++ written).length + 1 <
        (indent ++ (written ++ gap)).length := by
      simp only [List.length_append]
      omega
    unfold nameOf
    rw [isCore]
    dsimp only
    rw [isName, if_neg notSeveral, noBlank, notEmpty]
    rfl

/-- A definition that is split falls into its parts. -/
theorem exists_front_of_ofText {parts : SplitDefinition}
    (splits : ofText text = .ok parts) :
    ∃ written front back, IsFront (some written) front ∧
      front ++ (parts.expression ++ back) = text ∧
        parts.offset = byteSize front ∧ IsTrimmed parts.expression ∧
          IsWhite back ∧ parts.name = lowercase written := by
  unfold ofText at splits
  split at splits
  · contradiction
  next left right split =>
      obtain ⟨name, isName, splits⟩ := bind_eq_ok_iff.mp splits
      cases splits
      obtain ⟨indent, written, gap, white, nonempty, visible, isGap, rfl,
        rfl⟩ := nameOf_eq_ok_iff.mp isName
      obtain ⟨trimmed, back, whiteBack, isRight⟩ := exists_trim right
      have noEquals := not_mem_of_splitAtFirst? split
      have isText := append_of_splitAtFirst?_eq_some split
      refine ⟨written, _, back, .named white
        ⟨nonempty, visible, fun member => noEquals (by simp [member])⟩ isGap
        (isWhite_takeWhile right), ?_, ?_, trimmed, whiteBack, rfl⟩
      · rw [← isText]
        conv => rhs; rw [← isRight]
        simp
      · simp [Nat.add_assoc]

/-- A text with the parts of a definition is split into them. -/
theorem exists_ofText_eq_ok {written front expression back : Text}
    (isFront : IsFront (some written) front) (trimmed : IsTrimmed expression)
    (white : IsWhite back) :
    ∃ parts, ofText (front ++ (expression ++ back)) = .ok parts ∧
      parts.name = lowercase written ∧ parts.expression = expression := by
  cases isFront with
  | @named indent _ gap blanks whiteIndent isWritten isGap whiteBlanks =>
      have noEquals := isWritten.not_mem_equals whiteIndent isGap
      have isName : nameOf (indent ++ (written ++ gap)) =
          .ok (lowercase written) :=
        nameOf_eq_ok_iff.mpr ⟨indent, written, gap, whiteIndent,
          isWritten.nonempty, isWritten.visible, isGap, rfl, rfl⟩
      have isText : indent ++ (written ++ (gap ++ '=' :: blanks)) ++
          (expression ++ back) = (indent ++ (written ++ gap)) ++
            '=' :: (blanks ++ (expression ++ back)) := by
        simp
      have isExpression : trim (blanks ++ (expression ++ back)) = expression :=
        trimmed.trim_eq whiteBlanks white
      rw [isText, ofText, splitAtFirst?_append noEquals]
      simp only [isName, ok_bind, isExpression]
      exact ⟨_, rfl, rfl, rfl⟩

end SplitDefinition
end GraphingCalculator
