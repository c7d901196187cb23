import GraphingCalculator.Proofs.Grammar.Meaning
import GraphingCalculator.Proofs.Source.Parts

/-!
# Words with blanks between them

The words of a source can be written with other blanks between them.  A word
ends before a blank, and only a numeral looks at what stands behind the blanks,
since another numeral may not follow it.  So words that fit side by side are
read again one by one, and what changes is where they stand.
-/

namespace GraphingCalculator

open Text

/-- Words that stand in a text one after the other, with blanks behind each of
them.  Only behind the last word there may be none. -/
inductive IsSpaced : List Text → Text → Prop
  | last {word gap : Text} (white : IsWhite gap) :
      IsSpaced [word] (word ++ gap)
  | next {word gap text : Text} {words : List Text} (white : IsWhite gap)
      (nonempty : gap ≠ []) (rest : IsSpaced words text) :
      IsSpaced (word :: words) (word ++ (gap ++ text))

theorem IsSpaced.isBlank_or_mem {words : List Text} {text : Text}
    (spaced : IsSpaced words text) {character : Char}
    (member : character ∈ text) :
    isBlank character = true ∨ ∃ word ∈ words, character ∈ word := by
  induction spaced with
  | last white =>
      rcases List.mem_append.mp member with inWord | inGap
      · exact .inr ⟨_, List.mem_singleton_self _, inWord⟩
      · exact .inl (white _ inGap)
  | next white nonempty rest ih =>
      rcases List.mem_append.mp member with inWord | later
      · exact .inr ⟨_, List.mem_cons_self, inWord⟩
      rcases List.mem_append.mp later with inGap | inRest
      · exact .inl (white _ inGap)
      · exact (ih inRest).imp_right fun ⟨word, inWords, inWord⟩ =>
          ⟨word, List.mem_cons_of_mem _ inWords, inWord⟩

/-- A text begins with the first of its words. -/
theorem IsSpaced.exists_append {words : List Text} {text : Text}
    (spaced : IsSpaced words text) :
    ∃ word others after, words = word :: others ∧ text = word ++ after := by
  cases spaced with
  | last white => exact ⟨_, _, _, rfl, rfl⟩
  | next white nonempty rest => exact ⟨_, _, _, rfl, rfl⟩

/-- A text that begins with a blank, if with anything. -/
def IsGapped (text : Text) : Prop :=
  ∀ next ∈ text.head?, isBlank next = true

theorem isGapped_append {gap : Text} (white : IsWhite gap)
    (nonempty : gap ≠ []) (text : Text) : IsGapped (gap ++ text) := by
  intro next isNext
  rw [List.head?_append_of_ne_nil gap nonempty] at isNext
  exact white next (List.mem_of_head? isNext)

theorem isGapped_of_isWhite {gap : Text} (white : IsWhite gap) :
    IsGapped gap := fun next isNext => white next (List.mem_of_head? isNext)

theorem IsGapped.not_isPlain {text : Text} (gapped : IsGapped text)
    {next : Char} (isNext : next ∈ text.head?) : isPlain next = false := by
  rw [← Bool.not_eq_true]
  intro plain
  have white := gapped next isNext
  rw [isBlank_of_isPlain plain] at white
  contradiction

/-- A character that a numeral is written with. -/
def isNumeralCharacter (character : Char) : Bool :=
  character.isDigit || character = '.'

theorem IsGapped.not_isNumeralCharacter {text : Text} (gapped : IsGapped text)
    {next : Char} (isNext : next ∈ text.head?) :
    isNumeralCharacter next = false := by
  have notPlain := gapped.not_isPlain isNext
  simp only [isPlain, Bool.or_eq_false_iff] at notPlain
  simp [isNumeralCharacter, notPlain]

theorem IsNumeral.ne_point {text : Text} (isNumeral : IsNumeral text) :
    text ≠ ['.'] := by
  cases isNumeral with
  | whole nonempty isDigit =>
      rintro rfl
      exact absurd (isDigit '.' List.mem_cons_self) (by decide)
  | pointed nonempty wholeDigit fractionDigit =>
      intro isPoint
      rcases List.append_eq_singleton_iff.mp isPoint with
        ⟨rfl, isRest⟩ | ⟨-, isRest⟩
      · rw [(List.cons.inj isRest).2] at nonempty
        simp at nonempty
      · contradiction

namespace Segment

variable {text after : Text}

/-- A numeral ends where neither a digit nor a point follows it. -/
theorem numeralText_append (isNumeral : IsNumeral text)
    (stops : ∀ next ∈ after.head?, isNumeralCharacter next = false) :
    numeralText (text ++ after) = text := by
  have stopsDigit : ∀ next ∈ after.head?, next.isDigit = false :=
    fun next isNext => (Bool.or_eq_false_iff.mp (stops next isNext)).1
  have noDigits : after.takeWhile Char.isDigit = [] ∧
      after.dropWhile Char.isDigit = after := by
    cases after with
    | nil => exact ⟨rfl, rfl⟩
    | cons next rest => simp [stopsDigit next rfl]
  unfold numeralText
  cases isNumeral with
  | whole nonempty isDigit =>
      rw [List.takeWhile_append_of_pos isDigit,
        List.dropWhile_append_of_pos isDigit, noDigits.1, noDigits.2,
        List.append_nil]
      cases after with
      | nil => rfl
      | cons next rest =>
          have notPoint := (Bool.or_eq_false_iff.mp (stops next rfl)).2
          rw [decide_eq_false_iff_not] at notPoint
          simp [notPoint]
  | @pointed whole fraction nonempty wholeDigit fractionDigit =>
      have fractionOnly : (fraction ++ after).takeWhile Char.isDigit =
          fraction := by
        rw [List.takeWhile_append_of_pos fractionDigit, noDigits.1,
          List.append_nil]
      rw [List.append_assoc, List.takeWhile_append_of_pos wholeDigit,
        List.dropWhile_append_of_pos wholeDigit]
      simp [fractionOnly]

/-- A numeral is read before blanks, unless another numeral stands behind
them. -/
theorem isRead_numeral (isNumeral : IsNumeral text) (gapped : IsGapped after)
    (noNumeral : ∀ next ∈ (after.dropWhile isBlank).head?,
      isNumeralCharacter next = false) :
    IsRead ⟨text, .token .number⟩ after := by
  obtain ⟨first, rest, isText, begins⟩ :=
    Numeral.exists_first_of_isNumeral isNumeral
  have notBlank : isBlank first = false :=
    isBlank_of_isPlain
      ((isPlain_of_isNumeral isNumeral).2 first (by simp [isText]))
  have notSecond : after.head? ≠ some '.' := by
    intro isPoint
    have stops := gapped.not_isNumeralCharacter isPoint
    contradiction
  have isNumber : numeralReading text after = .token .number := by
    unfold numeralReading
    split
    next => rfl
    next next others isVisible =>
        have notNumeral := noNumeral next (by rw [isVisible]; rfl)
        rw [isNumeralCharacter] at notNumeral
        rw [notNumeral, if_neg Bool.false_ne_true]
  have isSegment : numeralSegment (text ++ after) =
      ⟨text, .token .number⟩ := by
    unfold numeralSegment
    dsimp only
    rw [numeralText_append isNumeral fun _ => gapped.not_isNumeralCharacter,
      List.drop_left, if_neg notSecond, if_neg isNumeral.ne_point, isNumber]
  refine ⟨first, rest, isText, ?_⟩
  rw [beginning, if_neg (by simp [notBlank]), if_pos (by simpa using begins),
    ← List.cons_append, ← isText, isSegment]

/-- Every segment but a mistake is read before a blank, and a numeral if no
other one stands behind the blanks. -/
theorem IsWellRead.isRead {piece : Segment} (wellRead : piece.IsWellRead)
    (notMistake : ∀ cause offset, piece.reading ≠ .mistake cause offset)
    (gapped : IsGapped after)
    (noNumeral : piece.reading = .token .number →
      ∀ next ∈ (after.dropWhile isBlank).head?,
        isNumeralCharacter next = false) :
    piece.IsRead after := by
  cases wellRead with
  | blank white => exact ⟨_, [], rfl, by rw [beginning, if_pos white]⟩
  | numeral isNumeral => exact isRead_numeral isNumeral gapped (noNumeral rfl)
  | openParen | closeParen | freeVariable => exact ⟨_, [], rfl, rfl⟩
  | derivative =>
      refine ⟨'d', ['/', 'd', 'x'], rfl, ?_⟩
      rw [beginning_of_isLower rfl, if_neg (by decide),
        if_pos ⟨after, rfl⟩]
  | identifier isName notVariable =>
      refine isRead_identifier_iff.mpr
        ⟨isName, notVariable, fun spells => ?_, fun next isNext => ?_⟩
      · have isD := eq_of_derivativeName_prefix isName spells
        rw [isD] at spells
        obtain ⟨others, isAfter⟩ := (List.cons_prefix_cons.mp spells).2
        have white := gapped '/' (by rw [show after = _ from isAfter.symm]; rfl)
        contradiction
      · rw [← Bool.not_eq_true]
        intro isCharacter
        have plain := isPlain_of_isNameCharacter isCharacter
        rw [gapped.not_isPlain isNext] at plain
        contradiction
  | operator operator => cases operator <;> exact ⟨_, [], rfl, rfl⟩
  | mistake text cause offset => exact absurd rfl (notMistake cause offset)

end Segment

open Segment

namespace Token

/-- A token that a segment of its text can be read as. -/
def IsReadFrom (classify : Text → Option Kind) (token : Token) : Prop :=
  ∃ reading, IsWellRead ⟨token.text, reading⟩ ∧
    (reading = .token token.kind ∨
      (reading = .identifier ∧ classify token.text = some token.kind))

/-- Two tokens that differ at most in their places. -/
structure IsMoved (first second : Token) : Prop where
  kind : second.kind = first.kind
  text : second.text = first.text

variable {classify : Text → Option Kind} {token : Token}

/-- The first character of a token is visible, and that of a numeral is a digit
or a point only if the token is a numeral. -/
theorem IsReadFrom.exists_first (readFrom : token.IsReadFrom classify) :
    ∃ first rest, token.text = first :: rest ∧ isBlank first = false ∧
      (token.kind ≠ .number → isNumeralCharacter first = false) := by
  obtain ⟨kind, text, position⟩ := token
  obtain ⟨reading, wellRead, isToken⟩ := readFrom
  dsimp only at wellRead isToken ⊢
  cases wellRead with
  | blank | mistake => simp at isToken
  | numeral isNumeral =>
      obtain ⟨first, rest, isText, -⟩ :=
        Numeral.exists_first_of_isNumeral isNumeral
      have plain := (isPlain_of_isNumeral isNumeral).2 first (by simp [isText])
      have isNumber : Kind.number = kind := by simpa using isToken
      exact ⟨first, rest, isText, isBlank_of_isPlain plain,
        fun notNumber => absurd isNumber.symm notNumber⟩
  | identifier isName notVariable =>
      cases text with
      | nil => contradiction
      | cons first rest =>
          rw [isIdentifier, Bool.and_eq_true] at isName
          refine ⟨first, rest, rfl, isBlank_of_isLower isName.1, fun _ => ?_⟩
          simp [isNumeralCharacter, isDigit_of_isLower isName.1,
            ne_point_of_isLower isName.1]
  | openParen | closeParen | freeVariable | derivative =>
      exact ⟨_, _, rfl, rfl, fun _ => rfl⟩
  | operator operator => cases operator <;> exact ⟨_, _, rfl, rfl, fun _ => rfl⟩

end Token

namespace Source

variable {classify : Text → Option Token.Kind}

/-- A token of a source is read from characters of the source. -/
theorem isReadFrom_of_readTokens {source : Text} {tokens : List Token}
    (reads : readTokens classify (locate 0 (segments source)) = .ok tokens)
    {token : Token} (member : token ∈ tokens) :
    token.IsReadFrom classify ∧ token.text ⊆ source := by
  obtain ⟨piece, located, isText, isToken⟩ :=
    exists_segment_of_mem_readTokens reads member
  have inSource := mem_segments_of_mem_locate located
  refine ⟨⟨piece.2.reading, ?_, isToken⟩, fun character inToken => ?_⟩
  · rw [isText]
    exact isWellRead_of_mem_segments inSource
  · rw [← flatMap_text_segments source]
    rw [isText] at inToken
    exact List.mem_flatMap.mpr ⟨piece.2, inSource, inToken⟩

/-- Blanks are no tokens. -/
theorem readTokens_blanks {blanks : Text} (white : IsWhite blanks)
    (position : Nat) (pieces : List Segment) :
    readTokens classify (locate position (segments blanks ++ pieces)) =
      readTokens classify
        (locate (position + byteSize blanks) pieces) := by
  induction blanks generalizing position with
  | nil => simp
  | cons first rest ih =>
      rw [IsWhite, List.forall_mem_cons] at white
      rw [segments_blank white.1, List.cons_append, locate, readTokens,
        ih white.2, byteSize_cons, byteSize_cons, byteSize_nil, Nat.add_zero,
        Nat.add_assoc]

/-- A token is read from its own text before a blank. -/
theorem readTokens_token {token : Token} {after : Text}
    (readFrom : token.IsReadFrom classify) (gapped : IsGapped after)
    (noNumeral : token.kind = .number →
      ∀ next ∈ (after.dropWhile isBlank).head?,
        isNumeralCharacter next = false) (position : Nat) :
    readTokens classify (locate position (segments (token.text ++ after))) =
      (readTokens classify
        (locate (position + byteSize token.text) (segments after))).map
          ({ token with position } :: ·) := by
  obtain ⟨reading, wellRead, isToken⟩ := readFrom
  have isRead : IsRead ⟨token.text, reading⟩ after := by
    refine wellRead.isRead ?_ gapped ?_
    · rcases isToken with rfl | ⟨rfl, -⟩ <;> simp
    · rcases isToken with rfl | ⟨rfl, -⟩
      · simpa using noNumeral
      · simp
  have isSegments := isRead.segments_append
  dsimp only at isSegments
  rw [isSegments, locate, readTokens]
  rcases isToken with rfl | ⟨rfl, known⟩
  · dsimp only
    cases readTokens classify (locate (position + byteSize token.text)
      (segments after)) <;> rfl
  · dsimp only
    rw [known]
    cases readTokens classify (locate (position + byteSize token.text)
      (segments after)) <;> rfl

/-- Behind the blanks after a numeral there is no other numeral. -/
theorem not_isNumeralCharacter_behind {token : Token} {others : List Token}
    {gap text : Text} (white : IsWhite gap)
    (spaced : IsSpaced (others.map Token.text) text)
    (readFrom : ∀ other ∈ others, other.IsReadFrom classify)
    (fits : (token :: others).IsChain Token.Fits)
    (isNumber : token.kind = .number) :
    ∀ next ∈ ((gap ++ text).dropWhile isBlank).head?,
      isNumeralCharacter next = false := by
  obtain ⟨word, words, after, isWord, rfl⟩ := spaced.exists_append
  obtain ⟨second, later, rfl, rfl, -⟩ := List.map_eq_cons_iff.mp isWord
  obtain ⟨first, characters, isText, visible, notNumeral⟩ :=
    (readFrom second List.mem_cons_self).exists_first
  have notNumber : second.kind ≠ .number := by
    intro alsoNumber
    have fitsSecond := (List.isChain_cons_cons.mp fits).1
    rw [Token.Fits, isNumber, alsoNumber] at fitsSecond
    contradiction
  rw [List.dropWhile_append_of_pos white, isText, List.cons_append,
    List.dropWhile_cons_of_neg (by simp [visible])]
  intro next isNext
  cases isNext
  exact notNumeral notNumber

/-- Tokens that fit side by side are read again from their texts with blanks
between them. -/
theorem exists_readTokens_of_isSpaced {words : List Text} {text : Text}
    (spaced : IsSpaced words text) {tokens : List Token}
    (isWords : tokens.map Token.text = words)
    (readFrom : ∀ token ∈ tokens, token.IsReadFrom classify)
    (fits : tokens.IsChain Token.Fits) (position : Nat) :
    ∃ moved, readTokens classify (locate position (segments text)) =
        .ok moved ∧
      List.Forall₂ Token.IsMoved tokens moved := by
  induction spaced generalizing tokens position with
  | @last word gap white =>
      obtain ⟨token, rfl, rfl⟩ := List.map_eq_singleton_iff.mp isWords
      have visible : gap.dropWhile isBlank = [] :=
        List.dropWhile_eq_nil_iff.mpr white
      have noTokens : readTokens classify (locate
          (position + byteSize token.text) (segments gap)) = .ok [] := by
        rw [← List.append_nil (segments gap), readTokens_blanks white]
        rfl
      refine ⟨[{ token with position }], ?_, .cons ⟨rfl, rfl⟩ .nil⟩
      rw [readTokens_token (readFrom token List.mem_cons_self)
        (isGapped_of_isWhite white) (by simp [visible]), noTokens]
      rfl
  | @next word gap text words white nonempty rest ih =>
      obtain ⟨token, others, rfl, rfl, isRest⟩ :=
        List.map_eq_cons_iff.mp isWords
      obtain ⟨readToken, readOthers⟩ := List.forall_mem_cons.mp readFrom
      obtain ⟨moved, reads, isMoved⟩ := ih isRest readOthers fits.tail
        (position + byteSize token.text + byteSize gap)
      refine ⟨{ token with position } :: moved, ?_, .cons ⟨rfl, rfl⟩ isMoved⟩
      rw [readTokens_token readToken (isGapped_append white nonempty text) ?_,
        segments_blanks_append white, readTokens_blanks white, reads]
      · rfl
      · exact not_isNumeralCharacter_behind white (isRest ▸ rest) readOthers
          fits

end Source
end GraphingCalculator
