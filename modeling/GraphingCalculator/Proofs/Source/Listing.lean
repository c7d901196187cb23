import GraphingCalculator.Proofs.Grammar.Compilation
import GraphingCalculator.Proofs.Source.Coverage
import GraphingCalculator.Proofs.Source.Recovery

/-!
# The listing of identifiers

The identifiers of a source are listed by a loop that asks the reader for one
lexeme after the other until nothing is left.  A mistake is passed over, and the
reader goes on behind what it has read.  Every round passes at least one
character, and so the loop ends.  Together with the tokens of a source, which
leave out nothing but blanks, this says that reading a source is lossless.
-/

namespace GraphingCalculator

open Text

namespace Source

/-- A listing on its way: the identifiers that are found, and what is left. -/
structure Listing where
  found : List (Nat × Text)
  left : Left

namespace Listing

/-- A listing that has found nothing yet. -/
def start (source : Text) : Listing :=
  ⟨[], charIndices 0 source⟩

/-- The next round asks for one lexeme.  There is no next round when nothing is
left, and a slice that does not exist stops the listing. -/
def next? (source : Text) (listing : Listing) :
    Except (Stop Empty) (Option Listing) :=
  match Reader.nextLexeme source listing.left with
  | .ok none _ => .ok none
  | .ok (some (.token _)) left => .ok (some { listing with left })
  | .ok (some (.identifier name position)) left =>
      .ok (some ⟨listing.found ++ [(position, name)], left⟩)
  | .error (.refusal _) left => .ok (some { listing with left })
  | .error .panic _ => .error .panic

/-- The listing ends with some identifiers after a number of rounds. -/
inductive Ends (source : Text) :
    Nat → Listing → List (Nat × Text) → Prop
  | done {listing : Listing} (isLast : listing.next? source = .ok none) :
      Ends source 0 listing listing.found
  | round {listing next : Listing} {rounds : Nat} {names : List (Nat × Text)}
      (isNext : listing.next? source = .ok (some next))
      (ends : Ends source rounds next names) :
      Ends source (rounds + 1) listing names

variable {source front : Text} {first : Char}

/-- A blank that is left does not change the next round. -/
theorem next?_blank {character : Char} (white : isBlank character = true)
    (found : List (Nat × Text)) (position : Nat) (left : Left) :
    next? source ⟨found, (position, character) :: left⟩ =
      next? source ⟨found, left⟩ := by
  unfold next?
  dsimp only
  rw [Reader.nextLexeme, if_pos white]

theorem Ends.blank {character : Char} (white : isBlank character = true)
    {found names : List (Nat × Text)} {left : Left} {rounds : Nat}
    (ends : Ends source rounds ⟨found, left⟩ names) (position : Nat) :
    Ends source rounds ⟨found, (position, character) :: left⟩ names := by
  have same : next? source _ = next? source _ :=
    next?_blank white found position left
  cases ends with
  | done isLast => exact .done (same.trans isLast)
  | round isNext ends => exact .round (same.trans isNext) ends

/-- The identifiers of the rest of a source. -/
def rest (position : Nat) (text : Text) : List (Nat × Text) :=
  wordsOf (· = .identifier) (locate position (segments text))

/-- Blanks hold no identifiers. -/
theorem rest_blanks {blanks : Text} (white : IsWhite blanks)
    (position : Nat) (text : Text) :
    rest position (blanks ++ text) =
      rest (position + byteSize blanks) text := by
  induction blanks generalizing position with
  | nil => rfl
  | cons first others ih =>
      rw [IsWhite, List.forall_mem_cons] at white
      rw [rest, List.cons_append, segments_blank white.1, locate,
        wordsOf_cons_of_neg (by simp), ← rest, ih white.2, byteSize_cons,
        byteSize_cons, byteSize_nil, Nat.add_zero, Nat.add_assoc]

/-- A segment that is no identifier is passed, together with blanks. -/
theorem rest_cons_of_ne {reading : Segment.Reading}
    {word blanks later text : Text}
    (notName : reading ≠ .identifier) (white : IsWhite blanks)
    (split : word ++ (blanks ++ later) = text) (position : Nat) :
    wordsOf (· = .identifier) (locate position
        (⟨word, reading⟩ :: segments (text.drop word.length))) =
      rest (position + byteSize (word ++ blanks)) later := by
  rw [← split, List.drop_left, locate,
    wordsOf_cons_of_neg (decide_eq_false notName), ← rest, rest_blanks white,
    byteSize_append, Nat.add_assoc]

theorem nextLexeme_visible {first : Char} (visible : isBlank first = false)
    (position : Nat) (left : Left) :
    Reader.nextLexeme source ((position, first) :: left) =
      match Reader.readVisible source position first left with
      | .ok lexeme later => .ok (some lexeme) later
      | .error stop later => .error stop later := by
  rw [Reader.nextLexeme, if_neg (by simp [visible])]
  change EStateM.map some _ left = _
  unfold EStateM.map
  cases Reader.readVisible source position first left <;> rfl

/-- A round passes the first segment of what is left, and perhaps some blanks.
It finds the identifier that the segment is. -/
theorem exists_next (visible : isBlank first = false) (others : Text)
    (split : front ++ first :: others = source) (found : List (Nat × Text)) :
    ∃ word later own, word ≠ [] ∧ word ++ later = first :: others ∧
      next? source ⟨found, charIndices (byteSize front) (first :: others)⟩ =
        .ok (some ⟨found ++ own,
          charIndices (byteSize front + byteSize word) later⟩) ∧
      rest (byteSize front) (first :: others) =
        own ++ rest (byteSize front + byteSize word) later := by
  have finds := Reader.finds_readVisible front visible others
  have nonempty := Segment.beginning_text_ne_nil first others
  rw [split] at finds
  rw [next?, rest, charIndices, nextLexeme_visible visible, segments_cons]
  generalize Segment.beginning first others = piece at finds nonempty ⊢
  generalize Reader.readVisible source (byteSize front) first
    (charIndices (byteSize front + first.utf8Size) others) = result at finds ⊢
  cases finds with
  | @token kind word blanks later white isText =>
      refine ⟨word ++ blanks, later, [],
        List.append_ne_nil_of_left_ne_nil nonempty blanks,
        (List.append_assoc ..).trans isText, ?_, ?_⟩
      · rw [byteSize_append, ← Nat.add_assoc, List.append_nil]
      · exact rest_cons_of_ne (by simp) white isText _
  | @identifier word later isText =>
      refine ⟨word, later, [(byteSize front, word)], nonempty, isText, rfl, ?_⟩
      rw [← isText, List.drop_left, locate, wordsOf_cons_of_pos (by simp),
        ← rest]
      rfl
  | @mistake word blanks later cause offset white isText =>
      refine ⟨word ++ blanks, later, [],
        List.append_ne_nil_of_left_ne_nil nonempty blanks,
        (List.append_assoc ..).trans isText, ?_, ?_⟩
      · rw [byteSize_append, List.append_nil]
      · exact rest_cons_of_ne (by simp) white isText _

/-- The listing ends with the identifiers of what is left, after at most one
round for each character. -/
theorem exists_ends {front text : Text} (split : front ++ text = source)
    (found : List (Nat × Text)) :
    ∃ rounds ≤ text.length,
      Ends source rounds ⟨found, charIndices (byteSize front) text⟩
        (found ++ rest (byteSize front) text) := by
  induction size : text.length using Nat.strongRecOn
    generalizing front text found with
  | ind bound ih =>
      have advance {word later : Text} (nonempty : word ≠ [])
          (isText : word ++ later = text) (found : List (Nat × Text)) :
          ∃ rounds < bound,
            Ends source rounds
              ⟨found, charIndices (byteSize front + byteSize word) later⟩
              (found ++ rest (byteSize front + byteSize word) later) := by
        have positive := List.length_pos_iff.mpr nonempty
        have lengths := congrArg List.length isText
        rw [List.length_append] at lengths
        have isSource : (front ++ word) ++ later = source := by
          rw [List.append_assoc, isText, split]
        obtain ⟨rounds, few, ends⟩ :=
          ih later.length (by omega) isSource found rfl
        rw [byteSize_append] at ends
        exact ⟨rounds, by omega, ends⟩
      cases text with
      | nil =>
          refine ⟨0, Nat.zero_le _, ?_⟩
          rw [rest, segments_nil, locate, wordsOf, List.filter_nil,
            List.map_nil, List.append_nil]
          exact .done rfl
      | cons first others =>
          cases visible : isBlank first with
          | true =>
              obtain ⟨rounds, few, ends⟩ :=
                advance (List.cons_ne_nil first []) rfl found
              have white : IsWhite [first] := by simpa [IsWhite] using visible
              have skips : rest (byteSize front) (first :: others) =
                  rest (byteSize front + byteSize [first]) others :=
                rest_blanks white _ others
              rw [skips]
              exact ⟨rounds, few.le, ends.blank visible _⟩
          | false =>
              obtain ⟨word, later, own, nonempty, isText, isNext, isRest⟩ :=
                exists_next visible others split found
              obtain ⟨rounds, few, ends⟩ :=
                advance nonempty isText (found ++ own)
              rw [isRest, ← List.append_assoc]
              exact ⟨rounds + 1, few, .round isNext ends⟩

end Listing

/-- Reading a source is lossless.  Its tokens are slices of it, one after the
other, with nothing but blanks around them, and its identifiers are the tokens
that are named.  Whatever the source is, the listing of its identifiers ends,
and they are slices of it that are spelled as names. -/
theorem tokens_cover_and_listing_ends (source : Text) :
    (∀ (environment : Environment) (tokens : List Token),
      environment.tokenize source = .ok tokens →
        AreSlices source (tokens.map Token.word) ∧
          (∀ before character after, before ++ character :: after = source →
            isBlank character = true ∨ ∃ token ∈ tokens,
              token.position ≤ byteSize before ∧
                byteSize before + character.utf8Size ≤
                  token.position + byteSize token.text) ∧
          identifiers source = (tokens.filter Token.isNamed).map Token.word) ∧
      (∃ rounds ≤ source.length,
        Listing.Ends source rounds (.start source) (identifiers source)) ∧
      AreSlices source (identifiers source) ∧
      ∀ position name, (position, name) ∈ identifiers source →
        isIdentifier name = true ∧ name.head? ≠ some 'x' := by
  refine ⟨fun environment tokens tokenizes => ?_, ?_, ?_, ?_⟩
  · exact covers_of_readTokens environment.isClassification_classify
      (tokenize_eq_ok_iff.mp tokenizes).2.2
  · rw [identifiers_eq_wordsOf]
    exact Listing.exists_ends (List.nil_append source) []
  · rw [identifiers_eq_wordsOf]
    exact areSlices_wordsOf _ source
  · exact fun position name => isIdentifier_of_mem_identifiers

/-- A derivative behind a blank of three bytes, and a name in it. -/
theorem tokens_cover_and_listing_ends_derivative :
    let source := "2.5\u3000d/dx(x pi)".toList
    let tokens : List Token :=
      [⟨.number, "2.5".toList, 0⟩, ⟨.function, derivativeName, 6⟩,
        ⟨.openParen, ['('], 10⟩, ⟨.freeVariable, variableName, 11⟩,
        ⟨.constant, "pi".toList, 13⟩, ⟨.closeParen, [')'], 15⟩]
    (Environment.empty {}).tokenize source = .ok tokens ∧
      AreSlices source (tokens.map Token.word) ∧
      identifiers source = [(13, "pi".toList)] := by
  intro source tokens
  have tokenizes : (Environment.empty {}).tokenize source = .ok tokens := by
    decide +kernel
  obtain ⟨areSlices, -, areNames⟩ :=
    (tokens_cover_and_listing_ends source).1 (.empty {}) tokens tokenizes
  exact ⟨tokenizes, areSlices, areNames⟩

end Source
end GraphingCalculator
