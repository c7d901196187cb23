import GraphingCalculator.Source.Identifiers
import GraphingCalculator.Source.Tokens
import Mathlib.Data.List.TakeWhile
import Mathlib.Tactic.ByContra
import Mathlib.Tactic.Push

/-!
# What the segments of a source look like

The reading of a segment decides which characters it can have: a parenthesis is
one character, a numeral has digits and at most one point, an identifier is made
of name characters.  This file collects these shapes in one relation, which
every segment of every source satisfies, and derives from it what the tokens of
a source are.
-/

namespace GraphingCalculator

/-- Digits with at most one point, which is not alone. -/
inductive IsNumeral : Text → Prop
  | whole {digits : Text} (nonempty : digits ≠ [])
      (isDigit : ∀ character ∈ digits, character.isDigit = true) :
      IsNumeral digits
  | pointed {whole fraction : Text} (nonempty : whole ≠ [] ∨ fraction ≠ [])
      (wholeDigit : ∀ character ∈ whole, character.isDigit = true)
      (fractionDigit : ∀ character ∈ fraction, character.isDigit = true) :
      IsNumeral (whole ++ '.' :: fraction)

namespace Segment

/-- The text that goes with the reading of a segment. -/
inductive IsWellRead : Segment → Prop
  | blank {character : Char} (white : isBlank character = true) :
      IsWellRead ⟨[character], .blank⟩
  | numeral {text : Text} (isNumeral : IsNumeral text) :
      IsWellRead ⟨text, .token .number⟩
  | openParen : IsWellRead ⟨['('], .token .openParen⟩
  | closeParen : IsWellRead ⟨[')'], .token .closeParen⟩
  | freeVariable : IsWellRead ⟨variableName, .token .freeVariable⟩
  | derivative : IsWellRead ⟨derivativeName, .token .function⟩
  | identifier {text : Text} (isName : isIdentifier text = true)
      (notVariable : text.head? ≠ some 'x') :
      IsWellRead ⟨text, .identifier⟩
  | operator (operator : Operator) :
      IsWellRead ⟨[operator.toChar], .token (.operator operator)⟩
  | mistake (text : Text) (cause : SyntaxCause) (offset : Nat) :
      IsWellRead ⟨text, .mistake cause offset⟩

theorem isNumeral_numeralText {first : Char} {rest : Text}
    (begins : (first.isDigit || first = '.') = true)
    (notPoint : numeralText (first :: rest) ≠ ['.']) :
    IsNumeral (numeralText (first :: rest)) := by
  have nonempty : numeralText (first :: rest) ≠ [] :=
    numeralText_ne_nil begins
  have wholeDigit : ∀ character ∈ (first :: rest).takeWhile Char.isDigit,
      character.isDigit = true := fun _ => List.mem_takeWhile_imp
  unfold numeralText at notPoint nonempty ⊢
  dsimp only at notPoint nonempty ⊢
  split
  next afterPoint shape =>
      rw [shape] at notPoint
      refine .pointed ?_ wholeDigit (fun _ => List.mem_takeWhile_imp)
      by_contra noDigits
      push Not at noDigits
      simp [noDigits] at notPoint
  next noPoint =>
      split at nonempty
      next afterPoint shape => exact absurd shape (noPoint afterPoint)
      next => exact .whole nonempty wholeDigit

theorem isWellRead_numeralSegment {first : Char} {rest : Text}
    (begins : (first.isDigit || first = '.') = true) :
    (numeralSegment (first :: rest)).IsWellRead := by
  unfold numeralSegment
  dsimp only
  split
  · exact .mistake _ _ _
  split
  · exact .mistake _ _ _
  next notPoint =>
      unfold numeralReading
      split
      · exact .numeral (isNumeral_numeralText begins notPoint)
      · split
        · exact .mistake _ _ _
        · exact .numeral (isNumeral_numeralText begins notPoint)

theorem toChar_of_ofChar?_eq_some {character : Char} {operator : Operator}
    (spelled : Operator.ofChar? character = some operator) :
    character = operator.toChar := by
  unfold Operator.ofChar? at spelled
  split at spelled <;> cases spelled <;> rfl

theorem isWellRead_beginning (first : Char) (rest : Text) :
    (beginning first rest).IsWellRead := by
  unfold beginning
  split
  next white => exact .blank white
  split
  next begins => exact isWellRead_numeralSegment begins
  split
  next isOpen => exact isOpen ▸ .openParen
  split
  next isClose => exact isClose ▸ .closeParen
  split
  next isVariable => exact isVariable ▸ .freeVariable
  next notVariable =>
      split
      · exact .derivative
      split
      next lower =>
          refine .identifier ?_ (by simpa using notVariable)
          simp only [isIdentifier, lower, Bool.true_and, List.all_eq_true]
          exact fun _ => List.mem_takeWhile_imp
      split
      next spelled =>
          rw [toChar_of_ofChar?_eq_some spelled]
          exact .operator _
      · exact .mistake _ _ _

theorem isWellRead_of_mem_segments {source : Text} {segment : Segment}
    (member : segment ∈ segments source) : segment.IsWellRead := by
  induction size : source.length using Nat.strongRecOn
    generalizing source with
  | ind bound ih =>
      cases source with
      | nil => simp at member
      | cons first rest =>
          have positive := List.length_pos_iff.mpr
            (beginning_text_ne_nil first rest)
          rw [segments_cons, List.mem_cons] at member
          rcases member with rfl | later
          · exact isWellRead_beginning first rest
          · refine ih _ ?_ later rfl
            rw [← size, List.length_drop, List.length_cons]
            omega

end Segment

section Located

variable {source : Text} {piece : Nat × Segment}

theorem mem_segments_of_mem_locate
    (member : piece ∈ locate 0 (segments source)) :
    piece.2 ∈ segments source := by
  have mapped := List.mem_map_of_mem (f := Prod.snd) member
  rwa [map_snd_locate] at mapped

theorem Segment.isWellRead_of_mem_locate
    (member : piece ∈ locate 0 (segments source)) : piece.2.IsWellRead :=
  isWellRead_of_mem_segments (mem_segments_of_mem_locate member)

end Located

namespace Source

variable {classify : Text → Option Token.Kind}

/-- A token comes from a segment: one that is a token already, or an identifier
that is in use. -/
theorem exists_segment_of_mem_readTokens {pieces : List (Nat × Segment)}
    {tokens : List Token} (reads : readTokens classify pieces = .ok tokens)
    {token : Token} (member : token ∈ tokens) :
    ∃ piece ∈ pieces, token.text = piece.2.text ∧
      (piece.2.reading = .token token.kind ∨
        (piece.2.reading = .identifier ∧
          classify token.text = some token.kind)) := by
  induction pieces generalizing tokens with
  | nil =>
      cases reads
      simp at member
  | cons piece rest ih =>
      obtain ⟨position, segment⟩ := piece
      have later {others : List Token}
          (readsRest : readTokens classify rest = .ok others)
          (inRest : token ∈ others) :
          ∃ piece ∈ (position, segment) :: rest,
            token.text = piece.2.text ∧
              (piece.2.reading = .token token.kind ∨
                (piece.2.reading = .identifier ∧
                  classify token.text = some token.kind)) := by
        obtain ⟨piece, inPieces, found⟩ := ih readsRest inRest
        exact ⟨piece, List.mem_cons_of_mem _ inPieces, found⟩
      unfold readTokens at reads
      split at reads
      next => exact later reads member
      next kind isToken =>
          cases readsRest : readTokens classify rest with
          | error error => simp [readsRest, bind, Except.bind] at reads
          | ok others =>
              simp only [readsRest, bind, Except.bind, pure, Except.pure,
                Except.ok.injEq] at reads
              subst reads
              rcases List.mem_cons.mp member with rfl | inRest
              · exact ⟨_, List.mem_cons_self, rfl, .inl isToken⟩
              · exact later readsRest inRest
      next isIdentifier =>
          split at reads
          next kind known =>
              cases readsRest : readTokens classify rest with
              | error error => simp [readsRest, bind, Except.bind] at reads
              | ok others =>
                  simp only [readsRest, bind, Except.bind, pure, Except.pure,
                    Except.ok.injEq] at reads
                  subst reads
                  rcases List.mem_cons.mp member with rfl | inRest
                  · exact ⟨_, List.mem_cons_self, rfl,
                      .inr ⟨isIdentifier, known⟩⟩
                  · exact later readsRest inRest
          next => contradiction
      next => contradiction

end Source

private theorem any_located_identifier (name : Text) (pieces : List Segment)
    (position : Nat) :
    ((locate position pieces).filterMap fun (place, segment) =>
        if segment.reading = .identifier then some (place, segment.text)
        else none).any (fun (_, identifier) => identifier = name) = true ↔
      ∃ segment ∈ pieces,
        segment.reading = .identifier ∧ segment.text = name := by
  induction pieces generalizing position with
  | nil => simp [locate]
  | cons segment rest ih =>
      rw [locate, List.filterMap_cons]
      by_cases isName : segment.reading = .identifier
      · simp only [isName, if_true, List.any_cons, Bool.or_eq_true, ih]
        simp [isName]
      · simp only [isName, if_false, ih]
        simp [isName]

theorem mentions_eq_true_iff {source name : Text} :
    mentions source name = true ↔
      ∃ segment ∈ segments source,
        segment.reading = .identifier ∧ segment.text = name :=
  any_located_identifier name (segments source) 0

end GraphingCalculator
