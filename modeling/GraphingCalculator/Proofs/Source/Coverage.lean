import GraphingCalculator.Proofs.Compilation.Positions
import GraphingCalculator.Proofs.Source.Parts
import GraphingCalculator.Proofs.Source.Slices
import GraphingCalculator.Proofs.Source.Spelling

/-!
# What the tokens of a source cover

The segments of a source stand in it side by side, and so the tokens and the
identifiers, which are some of them, are slices one after the other.  Between
the tokens there are only blanks, and the identifiers are the tokens that had to
be looked up.
-/

namespace GraphingCalculator

open Text

namespace Text

theorem byteSize_pos {text : Text} (nonempty : text ≠ []) :
    0 < byteSize text := by
  obtain ⟨first, rest, rfl⟩ := List.exists_cons_of_ne_nil nonempty
  have positive := first.utf8Size_pos
  rw [byteSize_cons]
  omega

/-- Words with the bytes at which they begin are slices of a text, and each of
them ends before the next one begins. -/
structure AreSlices (source : Text) (words : List (Nat × Text)) : Prop where
  slice : ∀ word ∈ words,
    (Text.slice source word.1 (word.1 + byteSize word.2) :
      Except (Stop Empty) Text) = .ok word.2
  apart : words.Pairwise fun first second =>
    first.1 < second.1 ∧ first.1 + byteSize first.2 ≤ second.1

end Text

/-- The words of located segments with some readings. -/
def wordsOf (keeps : Segment.Reading → Bool) (pieces : List (Nat × Segment)) :
    List (Nat × Text) :=
  (pieces.filter fun piece => keeps piece.2.reading).map fun piece =>
    (piece.1, piece.2.text)

section Located

variable {keeps : Segment.Reading → Bool} {piece : Nat × Segment}
  {pieces : List (Nat × Segment)} {source : Text}

theorem wordsOf_cons_of_pos (kept : keeps piece.2.reading = true) :
    wordsOf keeps (piece :: pieces) =
      (piece.1, piece.2.text) :: wordsOf keeps pieces := by
  unfold wordsOf
  rw [List.filter_cons_of_pos (by exact kept)]
  rfl

theorem wordsOf_cons_of_neg (dropped : keeps piece.2.reading = false) :
    wordsOf keeps (piece :: pieces) = wordsOf keeps pieces := by
  unfold wordsOf
  rw [List.filter_cons_of_neg (by simp [dropped])]

/-- Located segments stand side by side. -/
theorem pairwise_locate {pieces : List Segment}
    (nonempty : ∀ piece ∈ pieces, piece.text ≠ []) (start : Nat) :
    (locate start pieces).Pairwise fun first second =>
      first.1 < second.1 ∧ first.1 + byteSize first.2.text ≤ second.1 := by
  induction pieces generalizing start with
  | nil => exact .nil
  | cons piece rest ih =>
      obtain ⟨here, later⟩ := List.forall_mem_cons.mp nonempty
      refine .cons (fun other member => ?_) (ih later _)
      obtain ⟨before, after, -, isStart⟩ := exists_split_of_mem_locate member
      have positive := byteSize_pos here
      dsimp only
      omega

theorem slice_of_mem_locate (member : piece ∈ locate 0 (segments source)) :
    (slice source piece.1 (piece.1 + byteSize piece.2.text) :
      Except (Stop Empty) Text) = .ok piece.2.text := by
  obtain ⟨before, after, split, isStart⟩ := exists_split_of_mem_locate member
  have isSource : before.flatMap Segment.text ++
      (piece.2.text ++ after.flatMap Segment.text) = source := by
    rw [← List.flatMap_cons, ← List.flatMap_append, ← split,
      flatMap_text_segments]
  rw [isStart, Nat.zero_add, ← isSource]
  exact slice_append _ _ _

theorem areSlices_wordsOf (keeps : Segment.Reading → Bool) (source : Text) :
    AreSlices source (wordsOf keeps (locate 0 (segments source))) where
  slice := by
    intro word member
    obtain ⟨piece, isKept, rfl⟩ := List.mem_map.mp member
    exact slice_of_mem_locate (List.mem_filter.mp isKept).1
  apart := by
    rw [wordsOf, List.pairwise_map]
    exact (pairwise_locate (fun piece => Segment.text_ne_nil_of_mem)
      0).filter _

theorem identifiers_eq_wordsOf (source : Text) :
    identifiers source =
      wordsOf (· = .identifier) (locate 0 (segments source)) := by
  rw [identifiers]
  induction locate 0 (segments source) with
  | nil => rfl
  | cons piece rest ih =>
      by_cases isName : piece.2.reading = .identifier
      · rw [wordsOf_cons_of_pos (decide_eq_true isName), List.filterMap_cons]
        dsimp only
        rw [if_pos isName, ih]
      · rw [wordsOf_cons_of_neg (decide_eq_false isName), List.filterMap_cons]
        dsimp only
        rw [if_neg isName, ih]

/-- An identifier is a name that does not begin with the variable. -/
theorem isIdentifier_of_mem_identifiers {position : Nat} {name : Text}
    (member : (position, name) ∈ identifiers source) :
    isIdentifier name = true ∧ name.head? ≠ some 'x' := by
  rw [identifiers_eq_wordsOf] at member
  obtain ⟨⟨place, segment⟩, isKept, same⟩ := List.mem_map.mp member
  cases same
  obtain ⟨isLocated, isRead⟩ := List.mem_filter.mp isKept
  have isWellRead := Segment.isWellRead_of_mem_locate isLocated
  cases isWellRead with
  | identifier isName notVariable => exact ⟨isName, notVariable⟩
  | _ => contradiction

/-- A character of located segments belongs to one of them. -/
theorem exists_piece_of_character {pieces : List Segment} {before after : Text}
    {character : Char} (start : Nat)
    (split : before ++ character :: after = pieces.flatMap Segment.text) :
    ∃ piece ∈ locate start pieces, ∃ front back,
      piece.2.text = front ++ character :: back ∧
        piece.1 + byteSize front = start + byteSize before := by
  induction pieces generalizing start before with
  | nil => simp at split
  | cons piece rest ih =>
      rw [List.flatMap_cons] at split
      rcases List.append_eq_append_iff.mp split with
        ⟨back, isText, isAfter⟩ | ⟨middle, isBefore, isRest⟩
      · cases back with
        | nil =>
            obtain ⟨found, member, front, back, isWord, isPlace⟩ :=
              ih (start + byteSize piece.text)
                ((List.nil_append _).trans isAfter)
            rw [List.append_nil] at isText
            refine ⟨found, List.mem_cons_of_mem _ member, front, back, isWord,
              ?_⟩
            rw [isPlace, isText, byteSize_nil, Nat.add_zero]
        | cons first back =>
            obtain ⟨rfl, -⟩ := List.cons.inj isAfter
            exact ⟨(start, piece), List.mem_cons_self, before, back, isText,
              rfl⟩
      · obtain ⟨found, member, front, back, isWord, isPlace⟩ :=
          ih (start + byteSize piece.text) isRest.symm
        refine ⟨found, List.mem_cons_of_mem _ member, front, back, isWord, ?_⟩
        rw [isPlace, isBefore, byteSize_append, Nat.add_assoc]

end Located

namespace Token

/-- The text of a token with its position. -/
def word (token : Token) : Nat × Text :=
  (token.position, token.text)

/-- Check whether a token is a constant or a function other than the
derivative. -/
def isNamed (token : Token) : Bool :=
  (token.kind = .constant || token.kind = .function) &&
    token.text != derivativeName

theorem isNamed_of_isIdentifier {text : Text}
    (isName : isIdentifier text = true) {kind : Token.Kind}
    (isLookedUp : kind = .constant ∨ kind = .function) (position : Nat) :
    isNamed ⟨kind, text, position⟩ = true := by
  have notDerivative : text ≠ derivativeName := by
    rintro rfl
    contradiction
  rcases isLookedUp with rfl | rfl <;> simp [isNamed, notDerivative]

end Token

namespace Source

variable {classify : Text → Option Token.Kind}

/-- The tokens are the segments that are not blank, and the identifiers are the
tokens that are named. -/
theorem words_of_readTokens (sound : IsClassification classify)
    {pieces : List (Nat × Segment)}
    (wellRead : ∀ piece ∈ pieces, piece.2.IsWellRead) {tokens : List Token}
    (reads : readTokens classify pieces = .ok tokens) :
    tokens.map Token.word = wordsOf (· ≠ .blank) pieces ∧
      (tokens.filter Token.isNamed).map Token.word =
        wordsOf (· = .identifier) pieces := by
  induction pieces generalizing tokens with
  | nil =>
      cases reads
      exact ⟨rfl, rfl⟩
  | cons piece rest ih =>
      obtain ⟨position, segment⟩ := piece
      obtain ⟨isWellRead, wellReadRest⟩ := List.forall_mem_cons.mp wellRead
      have isToken {kind : Token.Kind} (visible : segment.reading ≠ .blank)
          (named : Token.isNamed ⟨kind, segment.text, position⟩ =
            decide (segment.reading = .identifier))
          (reads : (do
            let others ← readTokens classify rest
            return Token.mk kind segment.text position :: others) =
              .ok tokens) :
          tokens.map Token.word =
              wordsOf (· ≠ .blank) ((position, segment) :: rest) ∧
            (tokens.filter Token.isNamed).map Token.word =
              wordsOf (· = .identifier) ((position, segment) :: rest) := by
        obtain ⟨others, readsRest, reads⟩ := bind_eq_ok_iff.mp reads
        cases reads
        obtain ⟨sameWords, sameNames⟩ := ih wellReadRest readsRest
        rw [wordsOf_cons_of_pos (decide_eq_true visible), List.map_cons,
          sameWords]
        refine ⟨rfl, ?_⟩
        by_cases isName : segment.reading = .identifier
        · rw [List.filter_cons_of_pos (by simp [named, isName]),
            wordsOf_cons_of_pos (decide_eq_true isName), List.map_cons,
            sameNames]
          rfl
        · rw [List.filter_cons_of_neg (by simp [named, isName]),
            wordsOf_cons_of_neg (decide_eq_false isName), sameNames]
      unfold readTokens at reads
      cases isWellRead with
      | blank white =>
          rw [wordsOf_cons_of_neg (by simp), wordsOf_cons_of_neg (by simp)]
          exact ih wellReadRest reads
      | numeral | openParen | closeParen | freeVariable | operator =>
          exact isToken (by simp) (by simp [Token.isNamed]) reads
      | derivative => exact isToken (by simp) (by simp [Token.isNamed]) reads
      | identifier isName =>
          dsimp only at reads
          split at reads
          next kind known =>
              have named := Token.isNamed_of_isIdentifier isName
                (sound _ _ known) position
              exact isToken (by simp) (by simp [named]) reads
          next => contradiction
      | mistake => contradiction

variable {source : Text} {tokens : List Token}

/-- The tokens of a source are slices of it, and everything outside them is
blank. -/
theorem covers_of_readTokens (sound : IsClassification classify)
    (reads : readTokens classify (locate 0 (segments source)) = .ok tokens) :
    AreSlices source (tokens.map Token.word) ∧
      (∀ before character after, before ++ character :: after = source →
        isBlank character = true ∨ ∃ token ∈ tokens,
          token.position ≤ byteSize before ∧
            byteSize before + character.utf8Size ≤
              token.position + byteSize token.text) ∧
      identifiers source =
        (tokens.filter Token.isNamed).map Token.word := by
  obtain ⟨sameWords, sameNames⟩ := words_of_readTokens sound
    (fun _ => Segment.isWellRead_of_mem_locate) reads
  refine ⟨?_, fun before character after split => ?_, ?_⟩
  · rw [sameWords]
    exact areSlices_wordsOf _ source
  · rw [← flatMap_text_segments source] at split
    obtain ⟨piece, isPiece, front, back, isText, isPlace⟩ :=
      exists_piece_of_character 0 split
    by_cases isBlankPiece : piece.2.reading = .blank
    · left
      have isWellRead := Segment.isWellRead_of_mem_locate isPiece
      obtain ⟨position, segment⟩ := piece
      cases isWellRead with
      | @blank other white =>
          have member : character ∈ [other] := by
            rw [show [other] = front ++ character :: back from isText]
            simp
          rwa [List.mem_singleton.mp member]
      | _ => contradiction
    · right
      have isWord : (piece.1, piece.2.text) ∈ tokens.map Token.word := by
        rw [sameWords]
        exact List.mem_map.mpr ⟨piece, List.mem_filter.mpr
          ⟨isPiece, decide_eq_true isBlankPiece⟩, rfl⟩
      obtain ⟨token, member, same⟩ := List.mem_map.mp isWord
      obtain ⟨isPosition, isTokenText⟩ := Prod.mk.inj same
      refine ⟨token, member, ?_, ?_⟩
      · omega
      · rw [isTokenText, isText, byteSize_append, byteSize_cons]
        omega
  · rw [identifiers_eq_wordsOf, sameNames]

end Source
end GraphingCalculator
