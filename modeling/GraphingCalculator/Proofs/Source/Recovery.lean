import GraphingCalculator.Proofs.Source.Slices
import GraphingCalculator.Proofs.Source.Spacing

/-!
# A reader that goes on after a mistake

A source can be read in one pass over its characters and the bytes at which they
begin.  The texts of names and numerals are then slices of the source.  A reader
that refuses a lexeme has passed some of its characters, and it can be asked for
the next lexeme behind them.  This file writes the reader in that way.  No slice
ever stops it, and it finds the segments of the source one after the other.
-/

namespace GraphingCalculator

open Text

/-- A token, or an identifier that is still to be looked up. -/
inductive Lexeme
  | token (token : Token)
  | identifier (name : Text) (position : Nat)

namespace Source

/-- The characters that are left, with the bytes at which they begin. -/
abbrev Left := List (Nat × Char)

/-- Check whether the derivative stands at `start`, where the character `first`
is. -/
def readsDerivative (source : Text) (start : Nat) (first : Char) :
    Except (Stop SyntaxError) Bool :=
  if first = 'd' then do
    let rest ← sliceFrom source start
    return derivativeName.isPrefixOf rest
  else .ok false

theorem readsDerivative_eq (front : Text) (first : Char) (others : Text) :
    readsDerivative (front ++ first :: others) (byteSize front) first =
      .ok (derivativeName.isPrefixOf (first :: others)) := by
  unfold readsDerivative
  split
  next isD =>
      rw [sliceFrom_append, ok_bind]
      rfl
  next notD =>
      have notPrefix : derivativeName.isPrefixOf (first :: others) = false := by
        simp [derivativeName, List.isPrefixOf, Ne.symm notD]
      rw [notPrefix]

/-- A program that reads what is left.  What it has not passed is still left
when it refuses something. -/
abbrev Reader (Value : Type) := EStateM (Stop SyntaxError) Left Value

namespace Reader

variable {Value Result : Type}

/-- Go on with a slice. -/
def ofSlice (result : Except (Stop SyntaxError) Value) : Reader Value :=
  fun left =>
    match result with
    | .ok value => .ok value left
    | .error stop => .error stop left

/-- Pass over the characters up to one that is not dropped. -/
def skip (drops : Char → Bool) : Reader Unit :=
  modify fun left => left.dropWhile fun (_, character) => drops character

/-- The byte at which what is left begins. -/
def offset (source : Text) : Reader Nat :=
  return offsetOf source (← get)

/-- Pass over the characters of a numeral.  A second point is passed, and
refused. -/
def passNumeral (seenPoint : Bool) : Reader Unit
  | [] => .ok () []
  | (position, character) :: left =>
      if character = '.' then
        if seenPoint then .error (.refusal ⟨.multiplePoints, position⟩) left
        else passNumeral true left
      else if character.isDigit then passNumeral seenPoint left
      else .ok () ((position, character) :: left)

/-- Refuse a numeral that stands next. -/
def refuseNumeral : Reader Unit := do
  match (← get) with
  | [] => pure ()
  | (position, next) :: _ =>
      if isNumeralCharacter next then
        throw (.refusal ⟨.adjacentNumbers, position⟩)

/-- Read the numeral whose first character, at `start`, is passed already, and
the blanks after it. -/
def readNumeral (source : Text) (start : Nat) : Reader Lexeme := do
  let first ← ofSlice (slice source start (start + 1))
  passNumeral (first = ['.'])
  let numeral ← ofSlice (slice source start (← offset source))
  if numeral = ['.'] then throw (.refusal ⟨.invalidNumber, start⟩)
  skip isBlank
  refuseNumeral
  return .token ⟨.number, numeral, start⟩

/-- Read the name whose first character, at `start`, is passed already. -/
def readName (source : Text) (start : Nat) : Reader Lexeme := do
  skip isNameCharacter
  let name ← ofSlice (slice source start (← offset source))
  return .identifier name start

/-- Read the lexeme that begins at `start` with a character that is no blank
and is passed already. -/
def readVisible (source : Text) (start : Nat) (first : Char) :
    Reader Lexeme := do
  let single (kind : Token.Kind) : Reader Lexeme :=
    return .token ⟨kind, [first], start⟩
  if isNumeralCharacter first then readNumeral source start
  else if first = '(' then single .openParen
  else if first = ')' then single .closeParen
  else if first = 'x' then single .freeVariable
  else if (← ofSlice (readsDerivative source start first)) then
    modify (List.drop (derivativeName.length - 1))
    return .token ⟨.function, derivativeName, start⟩
  else if first.isLower then readName source start
  else
    match Operator.ofChar? first with
    | some operator => single (.operator operator)
    | none => throw (.refusal ⟨.invalidCharacter, start⟩)

/-- Read the next lexeme, if one is left. -/
def nextLexeme (source : Text) : Reader (Option Lexeme)
  | [] => .ok none []
  | (start, first) :: left =>
      if isBlank first then nextLexeme source left
      else (some <$> readVisible source start first) left

theorem ofSlice_ok_bind (value : Value) (next : Value → Reader Result)
    (left : Left) : (ofSlice (.ok value) >>= next) left = next value left :=
  rfl

section Numeral

variable {first : Char} {rest : Text}

theorem numeralText_digit (isDigit : first.isDigit = true) (rest : Text) :
    Segment.numeralText (first :: rest) =
      first :: Segment.numeralText rest := by
  unfold Segment.numeralText
  rw [List.takeWhile_cons_of_pos isDigit, List.dropWhile_cons_of_pos isDigit]
  split <;> rfl

theorem numeralText_other (notNumeral : isNumeralCharacter first = false)
    (rest : Text) : Segment.numeralText (first :: rest) = [] := by
  simp only [isNumeralCharacter, Bool.or_eq_false_iff,
    decide_eq_false_iff_not] at notNumeral
  simp [Segment.numeralText, notNumeral]

/-- The rest of a numeral at the start of a text.  Behind a point there are only
digits. -/
def numeralEnd (seenPoint : Bool) (text : Text) : Text :=
  if seenPoint then text.takeWhile Char.isDigit else Segment.numeralText text

/-- The end of a numeral before a text, where it is refused at a second
point. -/
def endNumeral (start : Nat) (numeral : Text) :
    Text → EStateM.Result (Stop SyntaxError) Left Unit
  | '.' :: later =>
      .error (.refusal ⟨.multiplePoints, start + byteSize numeral⟩)
        (charIndices (start + byteSize (numeral ++ ['.'])) later)
  | after => .ok () (charIndices (start + byteSize numeral) after)

theorem endNumeral_cons (start : Nat) (first : Char) (numeral after : Text) :
    endNumeral (start + first.utf8Size) numeral after =
      endNumeral start (first :: numeral) after := by
  unfold endNumeral
  split <;> simp [Nat.add_assoc]

theorem endNumeral_of_ne {after : Text} (notPoint : after.head? ≠ some '.')
    (start : Nat) (numeral : Text) :
    endNumeral start numeral after =
      .ok () (charIndices (start + byteSize numeral) after) := by
  unfold endNumeral
  split
  next => exact absurd rfl notPoint
  next => rfl

theorem numeralEnd_point (rest : Text) :
    numeralEnd false ('.' :: rest) = '.' :: numeralEnd true rest :=
  rfl

theorem numeralEnd_digit (seenPoint : Bool) (isDigit : first.isDigit = true)
    (rest : Text) :
    numeralEnd seenPoint (first :: rest) =
      first :: numeralEnd seenPoint rest := by
  cases seenPoint with
  | false => exact numeralText_digit isDigit rest
  | true => exact List.takeWhile_cons_of_pos isDigit

theorem numeralEnd_other (seenPoint : Bool) (notDigit : first.isDigit = false)
    (notPoint : first ≠ '.') (rest : Text) :
    numeralEnd seenPoint (first :: rest) = [] := by
  cases seenPoint with
  | false =>
      exact numeralText_other
        (by simp [isNumeralCharacter, notDigit, notPoint]) rest
  | true => exact List.takeWhile_cons_of_neg (by simp [notDigit])

/-- What is passed of a numeral is its text. -/
theorem passNumeral_charIndices (seenPoint : Bool) (start : Nat) (text : Text) :
    passNumeral seenPoint (charIndices start text) =
      endNumeral start (numeralEnd seenPoint text)
        (text.drop (numeralEnd seenPoint text).length) := by
  induction text generalizing start seenPoint with
  | nil => cases seenPoint <;> rfl
  | cons first rest ih =>
      rw [charIndices, passNumeral]
      by_cases isPoint : first = '.'
      · subst isPoint
        rw [if_pos rfl]
        cases seenPoint with
        | true => rfl
        | false =>
            rw [if_neg Bool.false_ne_true, ih, endNumeral_cons,
              numeralEnd_point, List.length_cons, List.drop_succ_cons]
      cases isDigit : first.isDigit with
      | true =>
          rw [if_neg isPoint, if_pos rfl, ih, endNumeral_cons,
            numeralEnd_digit seenPoint isDigit, List.length_cons,
            List.drop_succ_cons]
      | false =>
          rw [if_neg isPoint, if_neg Bool.false_ne_true,
            numeralEnd_other seenPoint isDigit isPoint]
          have notPoint : (first :: rest).head? ≠ some '.' := by
            simpa using isPoint
          exact (endNumeral_of_ne notPoint start []).symm

theorem passNumeral_eq (isNumeral : isNumeralCharacter first = true)
    (start : Nat) (rest : Text) :
    passNumeral (first = '.') (charIndices (start + first.utf8Size) rest) =
      endNumeral start (Segment.numeralText (first :: rest))
        ((first :: rest).drop
          (Segment.numeralText (first :: rest)).length) := by
  rw [passNumeral_charIndices, endNumeral_cons]
  by_cases isPoint : first = '.'
  · subst isPoint
    rfl
  · have isDigit : first.isDigit = true := by
      simpa [isNumeralCharacter, isPoint] using isNumeral
    rw [decide_eq_false isPoint, numeralText_digit isDigit]
    rfl

theorem utf8Size_of_isNumeralCharacter
    (isNumeral : isNumeralCharacter first = true) : first.utf8Size = 1 := by
  rw [isNumeralCharacter, Bool.or_eq_true, decide_eq_true_eq] at isNumeral
  rcases isNumeral with digit | rfl
  · rw [Char.isDigit, Bool.and_eq_true, decide_eq_true_eq, decide_eq_true_eq]
      at digit
    have bound := UInt32.le_iff_toNat_le.mp digit.2
    refine if_pos (UInt32.le_iff_toNat_le.mpr ?_)
    exact bound.trans (by decide)
  · rfl

end Numeral

/-- What a reader finds at the start of a text: the lexeme of its first segment,
or the mistake of that segment.  Behind the segment, and some blanks, the text
is left. -/
inductive Finds (position : Nat) (text : Text) :
    Segment → EStateM.Result (Stop SyntaxError) Left Lexeme → Prop
  | token {kind : Token.Kind} {word blanks later : Text}
      (white : IsWhite blanks) (split : word ++ (blanks ++ later) = text) :
      Finds position text ⟨word, .token kind⟩
        (.ok (.token ⟨kind, word, position⟩)
          (charIndices (position + byteSize word + byteSize blanks) later))
  | identifier {word later : Text} (split : word ++ later = text) :
      Finds position text ⟨word, .identifier⟩
        (.ok (.identifier word position)
          (charIndices (position + byteSize word) later))
  | mistake {word blanks later : Text} (cause : SyntaxCause) (offset : Nat)
      (white : IsWhite blanks) (split : word ++ (blanks ++ later) = text) :
      Finds position text ⟨word, .mistake cause offset⟩
        (.error (.refusal ⟨cause, position + offset⟩)
          (charIndices (position + (byteSize word + byteSize blanks)) later))

section Reading

variable {front others : Text} {first : Char}

theorem charIndices_drop (start : Nat) {word after text : Text}
    (split : word ++ after = text) :
    (charIndices start text).drop word.length =
      charIndices (start + byteSize word) after := by
  rw [← split, charIndices_append, ← length_charIndices start word,
    List.drop_left]

theorem refuseNumeral_of_pos (isNumeral : isNumeralCharacter first = true)
    (position : Nat) (left : Left) :
    refuseNumeral ((position, first) :: left) =
      .error (.refusal ⟨.adjacentNumbers, position⟩)
        ((position, first) :: left) := by
  change (if isNumeralCharacter first then _ else _ : Reader Unit) _ = _
  rw [if_pos isNumeral]
  rfl

theorem refuseNumeral_of_neg (notNumeral : ¬ isNumeralCharacter first = true)
    (position : Nat) (left : Left) :
    refuseNumeral ((position, first) :: left) =
      .ok () ((position, first) :: left) := by
  change (if isNumeralCharacter first then _ else _ : Reader Unit) _ = _
  rw [if_neg notNumeral]
  rfl

theorem skip_bind (drops : Char → Bool) (start : Nat) (text : Text)
    (next : Unit → Reader Value) :
    (skip drops >>= next) (charIndices start text) =
      next () (charIndices (start + byteSize (text.takeWhile drops))
        (text.dropWhile drops)) := by
  rw [← dropWhile_charIndices]
  rfl

/-- A word that is passed is the slice up to what is left. -/
theorem slice_offset_bind (front : Text) {word after rest : Text}
    (split : word ++ after = rest) (next : Text → Reader Value) :
    (do
        let text ← ofSlice (slice (front ++ rest) (byteSize front)
          (← offset (front ++ rest)))
        next text)
        (charIndices (byteSize front + byteSize word) after) =
      next word (charIndices (byteSize front + byteSize word) after) := by
  change (ofSlice (slice (front ++ rest) (byteSize front)
    (offsetOf (front ++ rest) (charIndices (byteSize front + byteSize word)
      after))) >>= next) _ = _
  rw [slice_offsetOf front split, ofSlice_ok_bind]

/-- Behind a numeral there are blanks, and then no other numeral. -/
theorem finds_numeralReading {start : Nat} {numeral after text : Text}
    (split : numeral ++ after = text) :
    Finds start text ⟨numeral, Segment.numeralReading numeral after⟩
      ((do
          skip isBlank
          refuseNumeral
          return .token ⟨.number, numeral, start⟩ : Reader Lexeme)
        (charIndices (start + byteSize numeral) after)) := by
  have white := isWhite_takeWhile after
  rw [← after.takeWhile_append_dropWhile (p := isBlank)] at split
  rw [skip_bind]
  unfold Segment.numeralReading
  cases isVisible : after.dropWhile isBlank with
  | nil =>
      rw [isVisible] at split
      exact .token white split
  | cons next later =>
      rw [isVisible] at split
      rw [charIndices]
      dsimp only
      rw [← isNumeralCharacter]
      split
      next isNext =>
          rw [bind_of_error (refuseNumeral_of_pos isNext _ _), Nat.add_assoc]
          exact .mistake _ _ white split
      next notNext =>
          rw [bind_of_ok (refuseNumeral_of_neg notNext _ _)]
          exact .token white split

theorem finds_readNumeral (front : Text)
    (isNumeral : isNumeralCharacter first = true) (others : Text) :
    Finds (byteSize front) (first :: others)
      (Segment.numeralSegment (first :: others))
      (readNumeral (front ++ first :: others) (byteSize front)
        (charIndices (byteSize front + first.utf8Size) others)) := by
  have noBlanks : IsWhite [] := by decide
  obtain ⟨after, split⟩ := Segment.isPrefix_of_numeralText (first :: others)
  have isAfter : (first :: others).drop
      (Segment.numeralText (first :: others)).length = after := by
    conv => lhs; arg 2; rw [← split]
    exact List.drop_left
  have isFirst : slice (front ++ first :: others) (byteSize front)
      (byteSize front + 1) =
        (.ok [first] : Except (Stop SyntaxError) Text) := by
    rw [← utf8Size_of_isNumeralCharacter isNumeral]
    exact slice_append front [first] others
  have samePoint : decide ([first] = ['.']) = decide (first = '.') := by simp
  have passes := passNumeral_eq isNumeral (byteSize front) others
  unfold readNumeral Segment.numeralSegment
  dsimp only
  rw [isFirst, ofSlice_ok_bind, samePoint]
  rw [isAfter] at passes ⊢
  generalize Segment.numeralText (first :: others) = numeral at split passes
  by_cases secondPoint : after.head? = some '.'
  · obtain ⟨later, rfl⟩ := List.head?_eq_some_iff.mp secondPoint
    rw [if_pos secondPoint, bind_of_error passes]
    exact .mistake _ _ noBlanks (by simpa using split)
  rw [endNumeral_of_ne secondPoint] at passes
  rw [if_neg secondPoint, bind_of_ok passes, slice_offset_bind front split]
  by_cases isPoint : numeral = ['.']
  · rw [if_pos isPoint, if_pos isPoint]
    exact .mistake _ 0 noBlanks split
  rw [if_neg isPoint, if_neg isPoint]
  exact finds_numeralReading split

theorem finds_readName (front : Text) (first : Char) (others : Text) :
    Finds (byteSize front) (first :: others)
      ⟨first :: others.takeWhile isNameCharacter, .identifier⟩
      (readName (front ++ first :: others) (byteSize front)
        (charIndices (byteSize front + first.utf8Size) others)) := by
  have isText : first :: others.takeWhile isNameCharacter ++
      others.dropWhile isNameCharacter = first :: others := by
    rw [List.cons_append, List.takeWhile_append_dropWhile]
  unfold readName
  rw [skip_bind, Nat.add_assoc, ← byteSize_cons, slice_offset_bind front isText]
  exact .identifier isText

/-- The lexeme that begins with a visible character is found in the segment that
begins there. -/
theorem finds_readVisible (front : Text) (visible : isBlank first = false)
    (others : Text) :
    Finds (byteSize front) (first :: others)
      (Segment.beginning first others)
      (readVisible (front ++ first :: others) (byteSize front) first
        (charIndices (byteSize front + first.utf8Size) others)) := by
  have noBlanks : IsWhite [] := by decide
  have single (kind : Token.Kind) :
      Finds (byteSize front) (first :: others) ⟨[first], .token kind⟩
        (.ok (.token ⟨kind, [first], byteSize front⟩)
          (charIndices (byteSize front + first.utf8Size) others)) :=
    .token noBlanks rfl
  unfold readVisible Segment.beginning
  dsimp only
  rw [if_neg (by simp [visible]), ← isNumeralCharacter]
  split
  next isNumeral => exact finds_readNumeral front isNumeral others
  split
  · exact single .openParen
  split
  · exact single .closeParen
  split
  · exact single .freeVariable
  rw [readsDerivative_eq, ofSlice_ok_bind]
  split
  next isDerivative =>
      obtain ⟨after, isText⟩ := List.isPrefixOf_iff_prefix.mp isDerivative
      have drops : (charIndices (byteSize front + first.utf8Size) others).drop
          (derivativeName.length - 1) =
            charIndices (byteSize front + byteSize derivativeName) after :=
        charIndices_drop (byteSize front) isText
      change Finds _ _ _ (.ok _ (List.drop _ _))
      rw [drops]
      exact .token noBlanks isText
  split
  · exact finds_readName front first others
  cases Operator.ofChar? first with
  | some operator => exact single (.operator operator)
  | none => exact .mistake _ 0 noBlanks rfl

end Reading

end Reader
end Source
end GraphingCalculator
