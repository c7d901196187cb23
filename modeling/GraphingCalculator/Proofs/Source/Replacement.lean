import GraphingCalculator.Proofs.Environment.Lookup
import GraphingCalculator.Proofs.Source.Renaming
import GraphingCalculator.Proofs.Source.Spelling

/-!
# Segments of a source with a name replaced

A segment is read from its own characters and from what follows it, and of that
only what stands before the next letter counts.  A name is followed by a letter
neither before nor after a renaming.  So the new source falls into the segments
of the old one with the name replaced, unless the new name begins with the free
variable or the characters of the derivative come together.
-/

namespace GraphingCalculator

/-- The characters of a text up to its first letter. -/
def beforeLetter (text : Text) : Text :=
  text.takeWhile fun character => !character.isLower

theorem beforeLetter_append_congr {first second : Text}
    (same : beforeLetter first = beforeLetter second) (front : Text) :
    beforeLetter (front ++ first) = beforeLetter (front ++ second) := by
  unfold beforeLetter at same ⊢
  rw [List.takeWhile_append, List.takeWhile_append, same]

section Letter

variable {letter : Char}

theorem isDigit_of_isLower (lower : letter.isLower = true) :
    letter.isDigit = false := by
  rw [← Bool.not_eq_true]
  intro digit
  rw [Char.isDigit, Bool.and_eq_true, decide_eq_true_eq, decide_eq_true_eq]
    at digit
  have above : 97 ≤ letter.toNat := (toNat_of_isLower lower).1
  have below : letter.toNat ≤ 57 := UInt32.le_iff_toNat_le.mp digit.2
  omega

theorem isBlank_of_isLower (lower : letter.isLower = true) :
    isBlank letter = false :=
  isBlank_of_isPlain (by simp [isPlain, lower])

theorem ne_point_of_isLower (lower : letter.isLower = true) :
    letter ≠ '.' := by
  rintro rfl
  contradiction

private theorem span_append_cons {stands : Char → Bool}
    (stops : stands letter = false) (front rest : Text) :
    (front ++ letter :: rest).takeWhile stands = front.takeWhile stands ∧
      (front ++ letter :: rest).dropWhile stands =
        front.dropWhile stands ++ letter :: rest := by
  induction front with
  | nil => simp [stops]
  | cons first others ih =>
      cases passes : stands first <;> simp [passes, ih]

end Letter

namespace Segment

section Numeral

variable {letter : Char} (lower : letter.isLower = true) (front rest : Text)
include lower

theorem numeralText_append_letter :
    numeralText (front ++ letter :: rest) = numeralText front := by
  obtain ⟨whole, afterWhole⟩ :=
    span_append_cons (isDigit_of_isLower lower) front rest
  unfold numeralText
  rw [whole, afterWhole]
  cases front.dropWhile Char.isDigit with
  | nil => simp [ne_point_of_isLower lower]
  | cons next others =>
      obtain ⟨fraction, -⟩ :=
        span_append_cons (isDigit_of_isLower lower) others rest
      by_cases isPoint : next = '.'
      · simp [isPoint, fraction]
      · simp [isPoint]

theorem numeralReading_append_letter (numeral : Text) :
    numeralReading numeral (front ++ letter :: rest) =
      numeralReading numeral front := by
  obtain ⟨blanks, afterBlanks⟩ :=
    span_append_cons (isBlank_of_isLower lower) front rest
  unfold numeralReading
  rw [blanks, afterBlanks]
  cases front.dropWhile isBlank with
  | nil => simp [isDigit_of_isLower lower, ne_point_of_isLower lower]
  | cons next others => rfl

/-- A numeral ends before a letter. -/
theorem numeralSegment_append_letter :
    numeralSegment (front ++ letter :: rest) = numeralSegment front := by
  have inFront : (numeralText front).length ≤ front.length :=
    (isPrefix_of_numeralText front).length_le
  unfold numeralSegment
  dsimp only
  rw [numeralText_append_letter lower, List.drop_append_of_le_length inFront,
    numeralReading_append_letter lower]
  cases front.drop (numeralText front).length with
  | nil => simp [ne_point_of_isLower lower]
  | cons next others => rfl

end Numeral

theorem numeralSegment_beforeLetter (text : Text) :
    numeralSegment (beforeLetter text) = numeralSegment text := by
  have split : beforeLetter text ++
      text.dropWhile (fun character => !character.isLower) = text :=
    List.takeWhile_append_dropWhile
  cases isAfter : text.dropWhile fun character => !character.isLower with
  | nil =>
      rw [isAfter, List.append_nil] at split
      rw [split]
  | cons letter rest =>
      have lower : letter.isLower = true := by
        have stops := List.head?_dropWhile_not
          (fun character : Char => !character.isLower) text
        simpa [isAfter] using stops
      rw [isAfter] at split
      conv => rhs; rw [← split]
      rw [numeralSegment_append_letter lower]

/-- A segment is read again where its text is followed by another text. -/
def IsRead (piece : Segment) (after : Text) : Prop :=
  ∃ first rest, piece.text = first :: rest ∧
    beginning first (rest ++ after) = piece

/-- What begins with a letter is the free variable, a derivative or a name. -/
theorem beginning_of_isLower {first : Char} (lower : first.isLower = true)
    (rest : Text) :
    beginning first rest =
      if first = 'x' then ⟨variableName, .token .freeVariable⟩
      else if derivativeName <+: first :: rest then
        ⟨derivativeName, .token .function⟩
      else ⟨first :: rest.takeWhile isNameCharacter, .identifier⟩ := by
  have notBlank := isBlank_of_isLower lower
  have notDigit := isDigit_of_isLower lower
  have notPoint := ne_point_of_isLower lower
  have notParenthesis := ne_parenthesis_of_isPlain
    (show isPlain first = true by simp [isPlain, lower])
  unfold beginning
  simp only [notBlank, notDigit, notPoint, notParenthesis, lower,
    List.isPrefixOf_iff_prefix, decide_false, Bool.or_self,
    Bool.false_eq_true, if_false, if_true]
  split
  next isVariable => rw [isVariable]; rfl
  next => rfl

/-- A name is read where no other character of a name follows it, unless the
free variable or the derivative is read first. -/
theorem isRead_identifier_iff {name after : Text} :
    IsRead ⟨name, .identifier⟩ after ↔
      isIdentifier name = true ∧ name.head? ≠ some 'x' ∧
        ¬ derivativeName <+: name ++ after ∧
          ∀ next ∈ after.head?, isNameCharacter next = false := by
  constructor
  · rintro ⟨first, rest, rfl, begins⟩
    have wellRead := isWellRead_beginning first (rest ++ after)
    rw [begins] at wellRead
    obtain ⟨isName, notVariable⟩ : isIdentifier (first :: rest) = true ∧
        (first :: rest).head? ≠ some 'x' := by
      cases wellRead with
      | identifier isName notVariable => exact ⟨isName, notVariable⟩
    have isLetter := isName
    rw [isIdentifier, Bool.and_eq_true, List.all_eq_true] at isLetter
    rw [beginning_of_isLower isLetter.1, if_neg (by simpa using notVariable)]
      at begins
    split at begins
    · cases begins
    next notDerivative =>
        refine ⟨isName, notVariable, notDerivative, fun next isNext => ?_⟩
        have isRest : (rest ++ after).takeWhile isNameCharacter = rest := by
          simpa using begins
        rw [List.takeWhile_append_of_pos isLetter.2, List.append_right_eq_self]
          at isRest
        obtain ⟨others, rfl⟩ := List.head?_eq_some_iff.mp isNext
        simpa using isRest
  · rintro ⟨isName, notVariable, notDerivative, stops⟩
    cases name with
    | nil => contradiction
    | cons first rest =>
        rw [isIdentifier, Bool.and_eq_true, List.all_eq_true] at isName
        have isRest : (rest ++ after).takeWhile isNameCharacter = rest := by
          rw [List.takeWhile_append_of_pos isName.2]
          cases after with
          | nil => simp
          | cons next others => simp [stops next rfl]
        refine ⟨first, rest, rfl, ?_⟩
        rw [List.cons_append] at notDerivative
        rw [beginning_of_isLower isName.1, if_neg (by simpa using notVariable),
          if_neg notDerivative, isRest]

/-- Every other segment is read again where the same characters follow it up to
the next letter. -/
theorem IsRead.congr {piece : Segment} {first second : Text}
    (isRead : piece.IsRead first) (notName : piece.reading ≠ .identifier)
    (same : beforeLetter first = beforeLetter second) :
    piece.IsRead second := by
  obtain ⟨character, rest, isText, begins⟩ := isRead
  refine ⟨character, rest, isText, ?_⟩
  cases lower : character.isLower with
  | true =>
      rw [beginning_of_isLower lower] at begins ⊢
      split
      next isVariable => rwa [if_pos isVariable] at begins
      next notVariable =>
          rw [if_neg notVariable] at begins
          split at begins
          next =>
              subst begins
              rw [if_pos ⟨second, congrArg (· ++ second) isText⟩]
          next =>
              subst begins
              contradiction
  | false =>
      have sameNumeral : numeralSegment (character :: (rest ++ first)) =
          numeralSegment (character :: (rest ++ second)) := by
        have sameBefore := beforeLetter_append_congr same (character :: rest)
        rw [List.cons_append, List.cons_append] at sameBefore
        rw [← numeralSegment_beforeLetter, sameBefore,
          numeralSegment_beforeLetter]
      have notDerivative (others : Text) :
          derivativeName.isPrefixOf (character :: others) = false := by
        have differs : character ≠ 'd' := by
          rintro rfl
          contradiction
        simp [derivativeName, List.isPrefixOf, Ne.symm differs]
      unfold beginning at begins ⊢
      simp only [sameNumeral, notDerivative, lower, Bool.false_eq_true,
        if_false] at begins ⊢
      exact begins

/-- The segments of a source are read where they stand. -/
theorem isRead_of_suffix {source : Text} {piece : Segment}
    {rest : List Segment} (suffix : piece :: rest <:+ segments source) :
    piece.IsRead (rest.flatMap text) := by
  induction size : source.length using Nat.strongRecOn
    generalizing source with
  | ind bound ih =>
      cases source with
      | nil => simp at suffix
      | cons first others =>
          have nonempty := beginning_text_ne_nil first others
          have positive := List.length_pos_iff.mpr nonempty
          rw [segments_cons, List.suffix_cons_iff] at suffix
          rcases suffix with isWhole | later
          · obtain ⟨rfl, rfl⟩ := List.cons.inj isWhole
            obtain ⟨after, split⟩ := isPrefix_of_beginning first others
            obtain ⟨head, tail, isText⟩ := List.exists_cons_of_ne_nil nonempty
            rw [isText, List.cons_append] at split
            obtain ⟨rfl, rfl⟩ := List.cons.inj split
            refine ⟨head, tail, isText, ?_⟩
            rw [flatMap_text_segments, isText]
            simp
          · refine ih _ ?_ later rfl
            rw [← size, List.length_drop, List.length_cons]
            omega

/-- A segment that is read before a text is the first one of both together. -/
theorem IsRead.segments_append {piece : Segment} {after : Text}
    (isRead : piece.IsRead after) :
    segments (piece.text ++ after) = piece :: segments after := by
  obtain ⟨first, rest, isText, begins⟩ := isRead
  rw [isText, List.cons_append, segments_cons, begins, isText,
    ← List.cons_append, List.drop_left]

/-- Segments that are read where they stand are the segments of their text. -/
theorem segments_flatMap_text {pieces : List Segment}
    (isRead : ∀ piece rest, piece :: rest <:+ pieces →
      piece.IsRead (rest.flatMap text)) :
    segments (pieces.flatMap text) = pieces := by
  induction pieces with
  | nil => simp
  | cons piece rest ih =>
      have isRest : segments (rest.flatMap text) = rest :=
        ih fun other later suffix =>
          isRead other later (suffix.trans (List.suffix_cons piece rest))
      rw [List.flatMap_cons,
        (isRead piece rest (List.suffix_refl _)).segments_append, isRest]

/-- The segment after a renaming. -/
def rename (old new : Text) (segment : Segment) : Segment :=
  { segment with text := segment.renamedText old new }

theorem rename_identifier (old new name : Text) :
    (Segment.mk name .identifier).rename old new =
      ⟨Expression.renameName old new name, .identifier⟩ := by
  simp [rename, renamedText, Expression.renameName]

theorem rename_of_ne_identifier {piece : Segment}
    (notName : piece.reading ≠ .identifier) (old new : Text) :
    piece.rename old new = piece := by
  rw [rename, renamedText, if_neg (by simp [notName])]

end Segment

open Segment

variable {old new source : Text}

theorem renameIdentifier_eq_flatMap_text (old new source : Text) :
    renameIdentifier old new source =
      ((segments source).map (Segment.rename old new)).flatMap
        Segment.text := by
  rw [List.flatMap_map]
  rfl

theorem isIdentifier_renameName (isNew : isIdentifier new = true) {name : Text}
    (isName : isIdentifier name = true) :
    isIdentifier (Expression.renameName old new name) = true := by
  unfold Expression.renameName
  split
  · exact isNew
  · exact isName

theorem beforeLetter_of_isIdentifier {name : Text}
    (isName : isIdentifier name = true) (after : Text) :
    beforeLetter (name ++ after) = [] := by
  cases name with
  | nil => contradiction
  | cons first rest =>
      rw [isIdentifier, Bool.and_eq_true] at isName
      simp [beforeLetter, isName.1]

/-- Nothing changes before the first letter of what follows a segment. -/
theorem beforeLetter_flatMap_rename (isName : isIdentifier new = true)
    {pieces : List Segment} (wellRead : ∀ piece ∈ pieces, piece.IsWellRead) :
    beforeLetter ((pieces.map (Segment.rename old new)).flatMap
        Segment.text) =
      beforeLetter (pieces.flatMap Segment.text) := by
  induction pieces with
  | nil => rfl
  | cons piece rest ih =>
      have sameRest := ih fun other member =>
        wellRead other (List.mem_cons_of_mem _ member)
      rw [List.map_cons, List.flatMap_cons, List.flatMap_cons]
      by_cases isPiece : piece.reading = .identifier
      · cases wellRead piece List.mem_cons_self with
        | identifier isOther notVariable =>
            rw [rename_identifier, beforeLetter_of_isIdentifier isOther,
              beforeLetter_of_isIdentifier
                (isIdentifier_renameName isName isOther)]
        | _ => contradiction
      · rw [rename_of_ne_identifier isPiece]
        exact beforeLetter_append_congr sameRest piece.text

/-- A name can be replaced by another one in a source: the new name does not
begin with the free variable, and no derivative is read where a name stands. -/
structure IsReplaceable (old new source : Text) : Prop where
  notVariable : new.head? ≠ some 'x'
  notDerivative : ∀ piece rest,
    piece :: rest <:+ (segments source).map (Segment.rename old new) →
      piece.reading = .identifier →
        ¬ derivativeName <+: (piece :: rest).flatMap Segment.text

/-- No character of a name comes to stand behind a name. -/
theorem not_isNameCharacter_of_beforeLetter {first second : Text}
    (same : beforeLetter second = beforeLetter first)
    (nothing : first = [] → second = [])
    (stops : ∀ next ∈ first.head?, isNameCharacter next = false) :
    ∀ next ∈ second.head?, isNameCharacter next = false := by
  intro next isNext
  obtain ⟨others, rfl⟩ := List.head?_eq_some_iff.mp isNext
  cases first with
  | nil => simp at nothing
  | cons character rest =>
      have stopsFirst := stops character rfl
      have notLower : character.isLower = false := by
        simp only [isNameCharacter, Bool.or_eq_false_iff] at stopsFirst
        exact stopsFirst.1
      cases lower : next.isLower with
      | true => simp [beforeLetter, lower, notLower] at same
      | false =>
          have sameCharacter : next = character := by
            simp only [beforeLetter, List.takeWhile_cons, lower, notLower,
              Bool.not_false, if_true, List.cons.injEq] at same
            exact same.1
          rw [sameCharacter]
          exact stopsFirst

/-- A segment is read again after a renaming, unless it is a name and a
derivative is read in its place. -/
theorem isRead_rename (isName : isIdentifier new = true)
    (newNotVariable : new.head? ≠ some 'x') {piece : Segment}
    {rest : List Segment} (suffix : piece :: rest <:+ segments source)
    (notDerivative : piece.reading = .identifier →
      ¬ derivativeName <+: ((piece :: rest).map
        (Segment.rename old new)).flatMap Segment.text) :
    (piece.rename old new).IsRead
      ((rest.map (Segment.rename old new)).flatMap Segment.text) := by
  have isRead := isRead_of_suffix suffix
  have wellRead : ∀ other ∈ piece :: rest, other.IsWellRead :=
    fun other member => isWellRead_of_mem_segments (suffix.subset member)
  have sameAfter : beforeLetter ((rest.map (Segment.rename old new)).flatMap
      Segment.text) = beforeLetter (rest.flatMap Segment.text) :=
    beforeLetter_flatMap_rename isName fun other member =>
      wellRead other (List.mem_cons_of_mem _ member)
  by_cases isPiece : piece.reading = .identifier
  · have notSpelled := notDerivative isPiece
    obtain ⟨name, reading⟩ := piece
    cases isPiece
    rw [List.map_cons, rename_identifier] at notSpelled
    rw [isRead_identifier_iff] at isRead
    obtain ⟨isOther, notVariable, -, stops⟩ := isRead
    rw [rename_identifier]
    refine isRead_identifier_iff.mpr
      ⟨isIdentifier_renameName isName isOther, ?_, notSpelled,
        not_isNameCharacter_of_beforeLetter sameAfter ?_ stops⟩
    · unfold Expression.renameName
      split
      · exact newNotVariable
      · exact notVariable
    · intro nothing
      cases rest with
      | nil => rfl
      | cons other later =>
          obtain ⟨first, others, isText, -⟩ := isRead_of_suffix
            ((List.suffix_cons _ _).trans suffix)
          simp [isText] at nothing
  · rw [rename_of_ne_identifier isPiece]
    exact isRead.congr isPiece sameAfter.symm

/-- After a renaming a source falls into the same segments, with the name
replaced. -/
theorem segments_renameIdentifier (isName : isIdentifier new = true)
    (replaceable : IsReplaceable old new source) :
    segments (renameIdentifier old new source) =
      (segments source).map (Segment.rename old new) := by
  rw [renameIdentifier_eq_flatMap_text]
  refine segments_flatMap_text fun renamed others suffix => ?_
  obtain ⟨pieces, before, split⟩ := List.suffix_map_iff.mp suffix
  cases pieces with
  | nil => contradiction
  | cons piece rest =>
      obtain ⟨rfl, rfl⟩ := List.cons.inj split
      exact isRead_rename isName replaceable.notVariable before
        (replaceable.notDerivative _ _ suffix)

theorem eq_of_derivativeName_prefix {name after : Text}
    (isName : isIdentifier name = true)
    (spells : derivativeName <+: name ++ after) : name = ['d'] := by
  match name with
  | [] => contradiction
  | [first] =>
      have isFirst : 'd' = first := (List.cons_prefix_cons.mp spells).1
      rw [isFirst]
  | first :: second :: rest =>
      have isSecond : '/' = second :=
        (List.cons_prefix_cons.mp (List.cons_prefix_cons.mp spells).2).1
      simp [isIdentifier, ← isSecond, isNameCharacter] at isName

/-- A text without the first character of the new name was there before the
renaming, if the renamed segments begin with it. -/
theorem prefix_of_prefix_rename {first : Char}
    (begins : new.head? = some first) {pieces : List Segment}
    {spelled : Text} (absent : first ∉ spelled)
    (spells : spelled <+: (pieces.map (Segment.rename old new)).flatMap
      Segment.text) :
    spelled <+: pieces.flatMap Segment.text := by
  obtain ⟨others, rfl⟩ := List.head?_eq_some_iff.mp begins
  induction pieces generalizing spelled with
  | nil => exact spells
  | cons piece rest ih =>
      rw [List.map_cons, List.flatMap_cons] at spells
      rw [List.flatMap_cons]
      by_cases isOld : piece.reading = .identifier ∧ piece.text = old
      · have isNew : (piece.rename old (first :: others)).text =
            first :: others := if_pos isOld
        rw [isNew] at spells
        cases spelled with
        | nil => exact List.nil_prefix
        | cons character later =>
            have same : character = first :=
              (List.cons_prefix_cons.mp spells).1
            exact absurd (same ▸ List.mem_cons_self) absent
      · have unchanged : (piece.rename old (first :: others)).text =
            piece.text := if_neg isOld
        rw [unchanged] at spells
        obtain ⟨after, split⟩ := spells
        rcases List.append_eq_append_iff.mp split with
          ⟨inside, isText, -⟩ | ⟨later, rfl, isRest⟩
        · rw [isText, List.append_assoc]
          exact List.prefix_append _ _
        · refine (List.prefix_append_right_inj _).mpr ?_
          refine ih ?_ ⟨after, isRest.symm⟩
          exact fun member => absent (List.mem_append_right _ member)

/-- A name that begins with another character than those of the derivative can
take the place of any name. -/
theorem isReplaceable_of_head {first : Char} (begins : new.head? = some first)
    (absent : first ∉ derivativeName) (old source : Text) :
    IsReplaceable old new source := by
  constructor
  · rw [begins]
    intro isVariable
    exact absent (by simp [derivativeName, Option.some.inj isVariable])
  · intro renamed others suffix isPiece spells
    obtain ⟨pieces, before, split⟩ := List.suffix_map_iff.mp suffix
    rw [split] at spells
    have spellsBefore := prefix_of_prefix_rename begins absent spells
    cases pieces with
    | nil => contradiction
    | cons piece rest =>
        obtain ⟨name, reading⟩ := piece
        obtain rfl : reading = .identifier := by
          rw [(List.cons.inj split).1] at isPiece
          exact isPiece
        exact (isRead_identifier_iff.mp (isRead_of_suffix before)).2.2.1
          spellsBefore

/-- A renamed source mentions the renamed names. -/
theorem mentions_renameIdentifier (isName : isIdentifier new = true)
    (replaceable : IsReplaceable old new source) {name : Text} :
    mentions (renameIdentifier old new source) name = true ↔
      ∃ earlier, mentions source earlier = true ∧
        Expression.renameName old new earlier = name := by
  rw [mentions_eq_true_iff, segments_renameIdentifier isName replaceable]
  constructor
  · rintro ⟨renamed, member, isIdentifier, rfl⟩
    obtain ⟨⟨earlier, reading⟩, inSource, rfl⟩ := List.mem_map.mp member
    obtain rfl : reading = .identifier := isIdentifier
    refine ⟨earlier, mentions_eq_true_iff.mpr ⟨_, inSource, rfl, rfl⟩, ?_⟩
    rw [rename_identifier]
  · rintro ⟨earlier, mentioned, rfl⟩
    obtain ⟨⟨text, reading⟩, member, isIdentifier, rfl⟩ :=
      mentions_eq_true_iff.mp mentioned
    obtain rfl : reading = .identifier := isIdentifier
    refine ⟨_, List.mem_map_of_mem member, ?_⟩
    rw [rename_identifier]
    exact ⟨rfl, rfl⟩

/-- Renaming a name that is new to a source can be undone. -/
theorem map_rename_rename (notMentioned : mentions source new = false) :
    ((segments source).map (Segment.rename old new)).map
      (Segment.rename new old) = segments source := by
  rw [List.map_map, List.map_congr_left, List.map_id]
  intro piece member
  have notNew := mentions_eq_false_iff.mp notMentioned piece member
  by_cases isPiece : piece.reading = .identifier
  · obtain ⟨name, reading⟩ := piece
    cases isPiece
    have differs : name ≠ new := fun same => notNew ⟨rfl, same⟩
    rw [Function.comp_apply, rename_identifier, rename_identifier,
      Expression.renameName_renameName differs]
    rfl
  · rw [Function.comp_apply, rename_of_ne_identifier isPiece,
      rename_of_ne_identifier isPiece]
    rfl

end GraphingCalculator
