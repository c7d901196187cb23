import GraphingCalculator.Proofs.Source.Checking
import GraphingCalculator.Proofs.Source.Replacement
import Mathlib.Data.List.DropRight

/-!
# Parts of a source

Blanks and an equals sign belong to no other segment, and what stands before
them is read without regard to what follows.  So a source that is cut there
falls into the segments of its parts, and a renaming renames the parts one by
one.
-/

namespace GraphingCalculator

namespace Text

/-- A text of blanks. -/
def IsWhite (text : Text) : Prop :=
  ∀ character ∈ text, isBlank character = true

instance (text : Text) : Decidable (IsWhite text) :=
  List.decidableBAll (fun character => isBlank character = true) text

/-- A text that neither begins nor ends with a blank. -/
structure IsTrimmed (text : Text) : Prop where
  head : ∀ first ∈ text.head?, isBlank first = false
  last : ∀ last ∈ text.getLast?, isBlank last = false

section Trimming

variable {front text back : Text}

theorem isWhite_takeWhile (text : Text) : IsWhite (text.takeWhile isBlank) :=
  fun _ member => List.mem_takeWhile_imp member

theorem IsWhite.not_mem_equals (white : IsWhite text) : '=' ∉ text := by
  intro member
  have isBlank := white '=' member
  contradiction

theorem trimEnd_append_blanks (text : Text) :
    ∃ back, IsWhite back ∧ trimEnd text ++ back = text :=
  ⟨text.rtakeWhile isBlank, fun _ => List.mem_rtakeWhile_imp,
    List.rdropWhile_append_rtakeWhile⟩

/-- Trimming takes blanks away at both ends. -/
theorem exists_trim (text : Text) :
    IsTrimmed (trim text) ∧ ∃ back, IsWhite back ∧
      text.takeWhile isBlank ++ (trim text ++ back) = text := by
  obtain ⟨back, white, split⟩ := trimEnd_append_blanks (trimStart text)
  refine ⟨⟨fun first isFirst => ?_, fun last isLast => ?_⟩, back, white, ?_⟩
  · have isStart : (trimStart text).head? = some first := by
      rw [← split, List.head?_append, show (trimEnd (trimStart text)).head? =
        some first from isFirst]
      rfl
    have stops := List.head?_dropWhile_not isBlank text
    rw [show (text.dropWhile isBlank).head? = some first from isStart] at stops
    simpa using stops
  · have stops := List.head?_dropWhile_not isBlank (trimStart text).reverse
    rw [Option.mem_def, trim, trimEnd, List.getLast?_reverse] at isLast
    rw [isLast] at stops
    simpa using stops
  · rw [trim, split, takeWhile_append_trimStart]

/-- What stands behind the last character that stays is dropped. -/
theorem rdropWhile_append {drops : Char → Bool}
    (last : ∀ last ∈ text.getLast?, drops last = false)
    (dropped : ∀ character ∈ back, drops character = true) :
    (text ++ back).rdropWhile drops = text := by
  rw [List.rdropWhile, List.reverse_append, List.dropWhile_append_of_pos
    fun character member => dropped character (List.mem_reverse.mp member)]
  refine List.rdropWhile_eq_self_iff.mpr fun nonempty => ?_
  rw [last _ (List.getLast_mem_getLast? nonempty)]
  exact Bool.false_ne_true

theorem trimEnd_append (last : ∀ last ∈ text.getLast?, isBlank last = false)
    (white : IsWhite back) : trimEnd (text ++ back) = text :=
  rdropWhile_append last white

theorem trimStart_append (white : IsWhite front)
    (head : ∀ first ∈ text.head?, isBlank first = false) :
    trimStart (front ++ text) = text := by
  rw [trimStart, List.dropWhile_append_of_pos white]
  cases text with
  | nil => rfl
  | cons first rest =>
      rw [List.dropWhile_cons_of_neg (by simp [head first rfl])]

theorem IsTrimmed.trim_eq (trimmed : IsTrimmed text)
    (whiteFront : IsWhite front) (whiteBack : IsWhite back) :
    trim (front ++ (text ++ back)) = text := by
  rw [trim]
  cases text with
  | nil =>
      rw [List.nil_append, trimStart, List.dropWhile_append_of_pos whiteFront,
        List.dropWhile_eq_nil_iff.mpr whiteBack]
      rfl
  | cons first rest =>
      rw [trimStart_append whiteFront (by simpa using trimmed.head)]
      exact trimEnd_append trimmed.last whiteBack

end Trimming

end Text

open Text

/-- A text that nothing before it reads on into: blanks, and after them nothing
or an equals sign. -/
def IsEnding (after : Text) : Prop :=
  ∀ next ∈ (after.dropWhile isBlank).head?, next = '='

theorem isEnding_of_isWhite {blanks : Text} (white : IsWhite blanks) :
    IsEnding blanks := by
  rw [IsEnding, List.dropWhile_eq_nil_iff.mpr white]
  simp

theorem isEnding_equals (rest : Text) : IsEnding ('=' :: rest) := by
  have visible : isBlank '=' = false := rfl
  simp [IsEnding, visible]

section Ending

variable {after : Text} (ending : IsEnding after)
include ending

/-- No character of a token stands at the start of an ending. -/
theorem IsEnding.head {next : Char} (isNext : next ∈ after.head?) :
    isPlain next = false ∧ next ∉ derivativeName := by
  obtain ⟨rest, rfl⟩ := List.head?_eq_some_iff.mp isNext
  cases white : isBlank next with
  | false =>
      have isEquals : next = '=' :=
        ending next (by rw [List.dropWhile_cons_of_neg (by simp [white])]; rfl)
      subst isEquals
      decide
  | true =>
      refine ⟨?_, ?_⟩
      · rw [← Bool.not_eq_true]
        intro plain
        rw [isBlank_of_isPlain plain] at white
        contradiction
      · intro member
        simp only [derivativeName, List.mem_cons, List.not_mem_nil, or_false]
          at member
        rcases member with rfl | rfl | rfl | rfl <;> contradiction

theorem IsEnding.ne_point {next : Char} (isNext : next ∈ after.head?) :
    next ≠ '.' := by
  rintro rfl
  have notPlain := (ending.head isNext).1
  simp [isPlain] at notPlain

theorem IsEnding.span {stands : Char → Bool}
    (isPlain : ∀ character, stands character = true →
      isPlain character = true) (text : Text) :
    (text ++ after).takeWhile stands = text.takeWhile stands ∧
      (text ++ after).dropWhile stands = text.dropWhile stands ++ after := by
  induction text with
  | nil =>
      cases after with
      | nil => simp
      | cons next rest =>
          have stops : stands next = false := by
            rw [← Bool.not_eq_true]
            intro passes
            have plain := isPlain next passes
            rw [(ending.head rfl).1] at plain
            contradiction
          simp [stops]
  | cons first rest ih =>
      cases passes : stands first <;> simp [passes, ih]

theorem IsEnding.derivativeName_isPrefix_iff {text : Text} :
    derivativeName <+: text ++ after ↔ derivativeName <+: text := by
  refine ⟨fun isDerivative => ?_, fun isDerivative =>
    isDerivative.trans (List.prefix_append text after)⟩
  rcases List.prefix_or_prefix_of_prefix isDerivative
      (List.prefix_append text after) with inText | ⟨more, split⟩
  · exact inText
  cases more with
  | nil =>
      rw [List.append_nil] at split
      exact split ▸ List.prefix_refl _
  | cons next rest =>
      rw [← split, List.prefix_append_right_inj] at isDerivative
      obtain ⟨others, rfl⟩ := isDerivative
      refine absurd ?_ (ending.head rfl).2
      rw [← split]
      simp

namespace Segment

theorem numeralText_append_ending (text : Text) :
    numeralText (text ++ after) = numeralText text := by
  have isPlain (character : Char) (digit : character.isDigit = true) :
      isPlain character = true := by
    simp [GraphingCalculator.isPlain, digit]
  obtain ⟨whole, afterWhole⟩ := ending.span isPlain text
  unfold numeralText
  rw [whole, afterWhole]
  cases text.dropWhile Char.isDigit with
  | nil =>
      cases after with
      | nil => rfl
      | cons next rest =>
          have notPoint : next ≠ '.' := ending.ne_point rfl
          simp [notPoint]
  | cons next others =>
      obtain ⟨fraction, -⟩ := ending.span isPlain others
      by_cases isPoint : next = '.'
      · simp [isPoint, fraction]
      · simp [isPoint]

theorem numeralReading_append_ending (numeral rest : Text) :
    numeralReading numeral (rest ++ after) = numeralReading numeral rest := by
  unfold numeralReading
  cases isVisible : rest.dropWhile isBlank with
  | nil =>
      rw [List.dropWhile_append, isVisible, List.isEmpty_nil, if_pos rfl]
      cases isNext : after.dropWhile isBlank with
      | nil => rfl
      | cons next others =>
          have isEquals : next = '=' := ending next (by rw [isNext]; rfl)
          subst isEquals
          rfl
  | cons next others =>
      have notWhite : (rest.takeWhile isBlank).length ≠ rest.length := by
        intro same
        have split := congrArg List.length
          (rest.takeWhile_append_dropWhile (p := isBlank))
        rw [List.length_append, isVisible, List.length_cons] at split
        omega
      rw [List.dropWhile_append, isVisible, List.isEmpty_cons,
        if_neg Bool.false_ne_true, List.takeWhile_append, if_neg notWhite]
      rfl

theorem numeralSegment_append_ending (text : Text) :
    numeralSegment (text ++ after) = numeralSegment text := by
  have inText : (numeralText text).length ≤ text.length :=
    (isPrefix_of_numeralText text).length_le
  unfold numeralSegment
  dsimp only
  rw [numeralText_append_ending ending, List.drop_append_of_le_length inText,
    numeralReading_append_ending ending]
  cases text.drop (numeralText text).length with
  | nil =>
      cases after with
      | nil => rfl
      | cons next rest =>
          have notPoint : next ≠ '.' := ending.ne_point rfl
          simp [notPoint]
  | cons next others => rfl

theorem beginning_append_ending (first : Char) (rest : Text) :
    beginning first (rest ++ after) = beginning first rest := by
  have sameNumeral : numeralSegment (first :: (rest ++ after)) =
      numeralSegment (first :: rest) := by
    rw [← List.cons_append, numeralSegment_append_ending ending]
  have sameDerivative : derivativeName.isPrefixOf (first :: (rest ++ after)) =
      derivativeName.isPrefixOf (first :: rest) := by
    rw [Bool.eq_iff_iff, List.isPrefixOf_iff_prefix, List.isPrefixOf_iff_prefix,
      ← List.cons_append, ending.derivativeName_isPrefix_iff]
  have sameName : (rest ++ after).takeWhile isNameCharacter =
      rest.takeWhile isNameCharacter :=
    (ending.span (fun _ => isPlain_of_isNameCharacter) rest).1
  unfold beginning
  rw [sameNumeral, sameDerivative, sameName]

end Segment

/-- A source falls into the segments of what stands before an ending, and those
of the ending. -/
theorem segments_append (text : Text) :
    segments (text ++ after) = segments text ++ segments after := by
  induction size : text.length using Nat.strongRecOn generalizing text with
  | ind bound ih =>
      cases text with
      | nil => simp
      | cons first rest =>
          have inText := (Segment.isPrefix_of_beginning first rest).length_le
          have positive := List.length_pos_iff.mpr
            (Segment.beginning_text_ne_nil first rest)
          rw [List.cons_append, segments_cons,
            Segment.beginning_append_ending ending, segments_cons,
            ← List.cons_append, List.drop_append_of_le_length inText,
            ih _ ?_ _ rfl, List.cons_append]
          rw [← size, List.length_drop]
          omega

theorem renameIdentifier_append (old new text : Text) :
    renameIdentifier old new (text ++ after) =
      renameIdentifier old new text ++ renameIdentifier old new after := by
  rw [renameIdentifier, segments_append ending, List.flatMap_append]
  rfl

end Ending

theorem segments_blank {character : Char} (white : isBlank character = true)
    (rest : Text) :
    segments (character :: rest) =
      ⟨[character], .blank⟩ :: segments rest := by
  have begins : Segment.beginning character rest = ⟨[character], .blank⟩ := by
    rw [Segment.beginning, if_pos white]
  rw [segments_cons, begins]
  rfl

theorem segments_equals (rest : Text) :
    segments ('=' :: rest) =
      ⟨['='], .mistake .invalidCharacter 0⟩ :: segments rest := by
  have begins : Segment.beginning '=' rest =
      ⟨['='], .mistake .invalidCharacter 0⟩ := by
    have notDerivative :
        derivativeName.isPrefixOf ('=' :: rest) = false := rfl
    rw [Segment.beginning, notDerivative]
    rfl
  rw [segments_cons, begins]
  rfl

theorem segments_blanks_append {blanks : Text} (white : IsWhite blanks)
    (rest : Text) :
    segments (blanks ++ rest) = segments blanks ++ segments rest := by
  induction blanks with
  | nil => simp
  | cons first others ih =>
      rw [IsWhite, List.forall_mem_cons] at white
      rw [List.cons_append, segments_blank white.1, segments_blank white.1,
        ih white.2, List.cons_append]

section Renaming

variable {old new : Text} {source blanks : Text}

/-- A renaming leaves blanks alone. -/
theorem renameIdentifier_of_isWhite (white : IsWhite blanks) (old new : Text) :
    renameIdentifier old new blanks = blanks := by
  induction blanks with
  | nil => simp [renameIdentifier]
  | cons first others ih =>
      rw [IsWhite, List.forall_mem_cons] at white
      rw [renameIdentifier, segments_blank white.1, List.flatMap_cons,
        ← renameIdentifier, ih white.2]
      simp [Segment.renamedText]

theorem renameIdentifier_blanks_append (white : IsWhite blanks)
    (old new rest : Text) :
    renameIdentifier old new (blanks ++ rest) =
      blanks ++ renameIdentifier old new rest := by
  rw [renameIdentifier, segments_blanks_append white, List.flatMap_append,
    ← renameIdentifier, renameIdentifier_of_isWhite white, ← renameIdentifier]

theorem renameIdentifier_append_blanks (white : IsWhite blanks)
    (old new text : Text) :
    renameIdentifier old new (text ++ blanks) =
      renameIdentifier old new text ++ blanks := by
  rw [renameIdentifier_append (isEnding_of_isWhite white),
    renameIdentifier_of_isWhite white]

/-- A renaming renames the two sides of an equals sign one by one. -/
theorem renameIdentifier_equals (old new left right : Text) :
    renameIdentifier old new (left ++ '=' :: right) =
      renameIdentifier old new left ++
        '=' :: renameIdentifier old new right := by
  rw [renameIdentifier_append (isEnding_equals right)]
  congr 1
  rw [renameIdentifier, segments_equals, List.flatMap_cons]
  simp [Segment.renamedText, renameIdentifier]

/-- A renaming that leaves a source as it is leaves its parts as they are. -/
theorem renameIdentifier_eq_self_of_subset {part : Text}
    (isPart : segments part ⊆ segments source)
    (same : renameIdentifier old new source = source) :
    renameIdentifier old new part = part := by
  refine renameIdentifier_of_forall_renamedText fun piece member => ?_
  unfold Segment.renamedText
  split
  next isOld =>
      by_contra changes
      have differs : old ≠ new := by
        rintro rfl
        exact changes isOld.2.symm
      exact mentions_eq_false_iff.mp
        ((renameIdentifier_eq_self_iff differs).mp same) piece (isPart member)
        isOld
  next => rfl

theorem Segment.text_ne_nil_of_mem {piece : Segment}
    (member : piece ∈ segments source) : piece.text ≠ [] := by
  obtain ⟨before, after, split⟩ := List.append_of_mem member
  obtain ⟨first, rest, isText, -⟩ := isRead_of_suffix ⟨before, split.symm⟩
  rw [isText]
  exact List.cons_ne_nil first rest

/-- A new name is visible, and so every other segment keeps its ends. -/
theorem Segment.isTrimmed_renamedText (isName : isIdentifier new = true)
    (old : Text) (piece : Segment) :
    piece.renamedText old new = piece.text ∨
      piece.renamedText old new ≠ [] ∧
        IsTrimmed (piece.renamedText old new) := by
  unfold renamedText
  split
  · obtain ⟨nonempty, plain⟩ := isPlain_of_isIdentifier isName
    exact .inr ⟨nonempty,
      fun first isFirst =>
        isBlank_of_isPlain (plain first (List.mem_of_head? isFirst)),
      fun last isLast =>
        isBlank_of_isPlain (plain last (List.mem_of_getLast? isLast))⟩
  · exact .inl rfl

theorem Segment.renamedText_ne_nil (isName : isIdentifier new = true)
    {piece : Segment} (member : piece ∈ segments source) :
    piece.renamedText old new ≠ [] := by
  rcases piece.isTrimmed_renamedText isName old with same | ⟨nonempty, -⟩
  · rw [same]
    exact text_ne_nil_of_mem member
  · exact nonempty

/-- What is trimmed stays trimmed. -/
theorem isTrimmed_renameIdentifier (isName : isIdentifier new = true)
    (trimmed : IsTrimmed source) (old : Text) :
    IsTrimmed (renameIdentifier old new source) := by
  have isSource := flatMap_text_segments source
  refine ⟨?_, ?_⟩
  · cases isSegments : segments source with
    | nil => simp [renameIdentifier, isSegments]
    | cons piece rest =>
        have member : piece ∈ segments source := by simp [isSegments]
        have visible := trimmed.head
        rw [← isSource, isSegments, List.flatMap_cons,
          List.head?_append_of_ne_nil _ (Segment.text_ne_nil_of_mem member)]
          at visible
        rw [renameIdentifier, isSegments, List.flatMap_cons,
          List.head?_append_of_ne_nil _
            (Segment.renamedText_ne_nil isName member)]
        rcases piece.isTrimmed_renamedText isName old with same | ⟨-, isTrimmed⟩
        · rwa [same]
        · exact isTrimmed.head
  · rcases List.eq_nil_or_concat' (segments source) with
      isSegments | ⟨front, piece, isSegments⟩
    · simp [renameIdentifier, isSegments]
    · have member : piece ∈ segments source := by simp [isSegments]
      have visible := trimmed.last
      rw [← isSource, isSegments, List.flatMap_append, List.flatMap_singleton,
        List.getLast?_append_of_ne_nil _ (Segment.text_ne_nil_of_mem member)]
        at visible
      rw [renameIdentifier, isSegments, List.flatMap_append,
        List.flatMap_singleton, List.getLast?_append_of_ne_nil _
          (Segment.renamedText_ne_nil isName member)]
      rcases piece.isTrimmed_renamedText isName old with same | ⟨-, isTrimmed⟩
      · rwa [same]
      · exact isTrimmed.last

theorem renameIdentifier_ne_nil (isName : isIdentifier new = true)
    (nonempty : source ≠ []) (old : Text) :
    renameIdentifier old new source ≠ [] := by
  cases source with
  | nil => exact absurd rfl nonempty
  | cons first rest =>
      have member : Segment.beginning first rest ∈
          segments (first :: rest) := by
        simp [segments_cons]
      rw [renameIdentifier, segments_cons, List.flatMap_cons]
      exact List.append_ne_nil_of_left_ne_nil
        (Segment.renamedText_ne_nil isName member) _

end Renaming
end GraphingCalculator
