import GraphingCalculator.SyntaxError
import GraphingCalculator.Text.Blank
import GraphingCalculator.Token.Basic

/-!
# Segments of a source

A source falls into segments: blanks, tokens, identifiers that are still to be
looked up, and mistakes.  The split never fails, and the texts of the segments
put together are the source again.  A mistake covers the characters that were
read before it was noticed, so that the segments after it can still be read.
-/

namespace GraphingCalculator

/-- What a segment of a source stands for.  A mistake is blamed on the
character at an offset from the start of its segment. -/
inductive Segment.Reading
  | blank
  | token (kind : Token.Kind)
  | identifier
  | mistake (cause : SyntaxCause) (offset : Nat)
  deriving DecidableEq

/-- A piece of a source. -/
structure Segment where
  text : Text
  reading : Segment.Reading
  deriving DecidableEq

namespace Segment

/-- How a numeral reads before the rest of its source.  Another number after
it, with or without blanks between them, is a mistake at that number. -/
def numeralReading (numeral rest : Text) : Reading :=
  match rest.dropWhile isBlank with
  | [] => .token .number
  | next :: _ =>
      if next.isDigit || next = '.' then
        .mistake .adjacentNumbers
          (Text.byteSize numeral + Text.byteSize (rest.takeWhile isBlank))
      else .token .number

/-- The digits with at most one point that a text starts with. -/
def numeralText (text : Text) : Text :=
  let whole := text.takeWhile Char.isDigit
  match text.dropWhile Char.isDigit with
  | '.' :: afterPoint => whole ++ '.' :: afterPoint.takeWhile Char.isDigit
  | _ => whole

/-- The segment of the numeral at the start of a text.  A second point ends it
as a mistake. -/
def numeralSegment (text : Text) : Segment :=
  let numeral := numeralText text
  let rest := text.drop numeral.length
  if rest.head? = some '.' then
    ⟨numeral ++ ['.'], .mistake .multiplePoints (Text.byteSize numeral)⟩
  else if numeral = ['.'] then ⟨numeral, .mistake .invalidNumber 0⟩
  else ⟨numeral, numeralReading numeral rest⟩

/-- The segment that begins with `first`. -/
def beginning (first : Char) (rest : Text) : Segment :=
  if isBlank first then ⟨[first], .blank⟩
  else if first.isDigit || first = '.' then numeralSegment (first :: rest)
  else if first = '(' then ⟨[first], .token .openParen⟩
  else if first = ')' then ⟨[first], .token .closeParen⟩
  else if first = 'x' then ⟨[first], .token .freeVariable⟩
  else if derivativeName.isPrefixOf (first :: rest) then
    ⟨derivativeName, .token .function⟩
  else if first.isLower then
    ⟨first :: rest.takeWhile isNameCharacter, .identifier⟩
  else
    match Operator.ofChar? first with
    | some operator => ⟨[first], .token (.operator operator)⟩
    | none => ⟨[first], .mistake .invalidCharacter 0⟩

theorem isPrefix_of_numeralText (text : Text) : numeralText text <+: text := by
  have wholeSplit : text.takeWhile Char.isDigit ++
      text.dropWhile Char.isDigit = text := List.takeWhile_append_dropWhile
  unfold numeralText
  cases afterWhole : text.dropWhile Char.isDigit with
  | nil => exact List.takeWhile_prefix _
  | cons next afterPoint =>
      split
      next fraction shape =>
          obtain ⟨rfl, rfl⟩ := List.cons.inj shape
          exact ⟨afterPoint.dropWhile Char.isDigit, by
            rw [afterWhole] at wholeSplit
            simpa [List.takeWhile_append_dropWhile] using wholeSplit⟩
      next => exact List.takeWhile_prefix _

theorem numeralText_ne_nil {first : Char} {rest : Text}
    (begins : (first.isDigit || first = '.') = true) :
    numeralText (first :: rest) ≠ [] := by
  cases digit : first.isDigit with
  | true =>
      unfold numeralText
      split <;> simp [List.takeWhile, digit]
  | false =>
      have point : first = '.' := by simpa [digit] using begins
      subst point
      simp [numeralText, List.takeWhile, List.dropWhile, digit]

theorem isPrefix_of_numeralSegment (text : Text) :
    (numeralSegment text).text <+: text := by
  obtain ⟨rest, covers⟩ := isPrefix_of_numeralText text
  have drops : text.drop (numeralText text).length = rest := by
    conv => lhs; rw [← covers]
    rw [List.drop_left']
    simp [covers]
  unfold numeralSegment
  simp only [drops]
  split
  next secondPoint =>
      obtain ⟨after, rfl⟩ := List.head?_eq_some_iff.mp secondPoint
      exact ⟨after, by simpa using covers⟩
  · split <;> exact isPrefix_of_numeralText text

theorem numeralSegment_text_ne_nil {first : Char} {rest : Text}
    (begins : (first.isDigit || first = '.') = true) :
    (numeralSegment (first :: rest)).text ≠ [] := by
  have nonempty : numeralText (first :: rest) ≠ [] :=
    numeralText_ne_nil begins
  unfold numeralSegment
  dsimp only
  split
  · simp
  · split
    · exact nonempty
    · exact nonempty

/-- A segment is made of the characters it was read from. -/
theorem isPrefix_of_beginning (first : Char) (rest : Text) :
    (beginning first rest).text <+: first :: rest := by
  unfold beginning
  repeat' split
  all_goals first
    | exact isPrefix_of_numeralSegment _
    | exact ⟨rest, rfl⟩
    | exact List.isPrefixOf_iff_prefix.mp (by assumption)
    | exact (List.prefix_cons_inj first).mpr (List.takeWhile_prefix _)

theorem beginning_text_ne_nil (first : Char) (rest : Text) :
    (beginning first rest).text ≠ [] := by
  unfold beginning
  split
  next => simp
  split
  next begins => exact numeralSegment_text_ne_nil begins
  repeat' split
  all_goals simp [derivativeName]

end Segment

/-- The segments of a source, in order. -/
def segments : Text → List Segment
  | [] => []
  | first :: rest =>
      let segment := Segment.beginning first rest
      segment :: segments (rest.drop (segment.text.length - 1))
termination_by source => source.length
decreasing_by
  simp only [List.length_drop, List.length_cons]
  omega

@[simp] theorem segments_nil : segments [] = [] := by
  simp [segments]

theorem segments_cons (first : Char) (rest : Text) :
    segments (first :: rest) =
      Segment.beginning first rest ::
        segments ((first :: rest).drop
          (Segment.beginning first rest).text.length) := by
  rw [segments]
  obtain ⟨head, tail, text⟩ :=
    List.exists_cons_of_ne_nil (Segment.beginning_text_ne_nil first rest)
  simp [text]

/-- Nothing of a source is lost in its segments. -/
theorem flatMap_text_segments (source : Text) :
    (segments source).flatMap Segment.text = source := by
  induction size : source.length using Nat.strongRecOn generalizing source with
  | ind bound ih =>
      cases source with
      | nil => simp
      | cons first rest =>
          obtain ⟨after, split⟩ := Segment.isPrefix_of_beginning first rest
          have positive := List.length_pos_iff.mpr
            (Segment.beginning_text_ne_nil first rest)
          have drops : (first :: rest).drop
              (Segment.beginning first rest).text.length = after := by
            rw [← split, List.drop_left]
          have lengths := congrArg List.length split
          rw [List.length_append] at lengths
          rw [segments_cons, drops, List.flatMap_cons,
            ih after.length (by omega) after rfl, split]

/-- Segments with the byte offsets at which they begin. -/
def locate : Nat → List Segment → List (Nat × Segment)
  | _, [] => []
  | position, segment :: rest =>
      (position, segment) ::
        locate (position + Text.byteSize segment.text) rest

@[simp]
theorem map_snd_locate (position : Nat) (pieces : List Segment) :
    (locate position pieces).map Prod.snd = pieces := by
  induction pieces generalizing position with
  | nil => rfl
  | cons segment rest ih => simp [locate, ih]

theorem locate_append (position : Nat) (first second : List Segment) :
    locate position (first ++ second) =
      locate position first ++
        locate
          (position + Text.byteSize (first.flatMap Segment.text)) second := by
  induction first generalizing position with
  | nil => simp [locate]
  | cons segment rest ih => simp [locate, ih, Nat.add_assoc]

end GraphingCalculator
