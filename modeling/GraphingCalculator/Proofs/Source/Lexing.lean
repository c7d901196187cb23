import GraphingCalculator.Proofs.Source.Recovery

/-!
# Reading a source by slices

The tokens of a source are read lexeme by lexeme, up to the first mistake.  What
is left behind a mistake does not matter then, and so the reader is written here
without it.  No slice ever stops the reading, and it reads the tokens that the
segments of the source are.
-/

namespace GraphingCalculator

open Text

namespace Source

/-- Pass over the characters of a numeral.  A second point is refused. -/
def passNumeral (seenPoint : Bool) : Left → Except (Stop SyntaxError) Left
  | [] => .ok []
  | (position, character) :: left =>
      if character = '.' then
        if seenPoint then .error (.refusal ⟨.multiplePoints, position⟩)
        else passNumeral true left
      else if character.isDigit then passNumeral seenPoint left
      else .ok ((position, character) :: left)

/-- Read the numeral whose first character, at `start`, is passed already, and
the blanks after it. -/
def readNumeral (source : Text) (start : Nat) (left : Left) :
    Except (Stop SyntaxError) (Lexeme × Left) := do
  let first ← slice source start (start + 1)
  let left ← passNumeral (first = ['.']) left
  let numeral ← slice source start (offsetOf source left)
  if numeral = ['.'] then .error (.refusal ⟨.invalidNumber, start⟩)
  else
    match left.dropWhile fun (_, character) => isBlank character with
    | [] => .ok (.token ⟨.number, numeral, start⟩, [])
    | (position, next) :: others =>
        if isNumeralCharacter next then
          .error (.refusal ⟨.adjacentNumbers, position⟩)
        else .ok (.token ⟨.number, numeral, start⟩, (position, next) :: others)

/-- Read the lexeme that begins at `start` with a character that is no blank. -/
def readVisible (source : Text) (start : Nat) (first : Char) (left : Left) :
    Except (Stop SyntaxError) (Lexeme × Left) :=
  let single (kind : Token.Kind) :
      Except (Stop SyntaxError) (Lexeme × Left) :=
    .ok (.token ⟨kind, [first], start⟩, left)
  if isNumeralCharacter first then readNumeral source start left
  else if first = '(' then single .openParen
  else if first = ')' then single .closeParen
  else if first = 'x' then single .freeVariable
  else do
    let isDerivative ← readsDerivative source start first
    if isDerivative then
      .ok (.token ⟨.function, derivativeName, start⟩,
        left.drop (derivativeName.length - 1))
    else if first.isLower then do
      let left := left.dropWhile fun (_, character) => isNameCharacter character
      let name ← slice source start (offsetOf source left)
      .ok (.identifier name start, left)
    else
      match Operator.ofChar? first with
      | some operator => single (.operator operator)
      | none => .error (.refusal ⟨.invalidCharacter, start⟩)

/-- Read the next lexeme, if one is left. -/
def nextLexeme (source : Text) :
    Left → Except (Stop SyntaxError) (Option (Lexeme × Left))
  | [] => .ok none
  | (start, first) :: left =>
      if isBlank first then nextLexeme source left
      else (readVisible source start first left).map some

section Length

variable {source : Text} {start : Nat} {left later : Left} {lexeme : Lexeme}

theorem length_of_passNumeral {seenPoint : Bool}
    (passes : passNumeral seenPoint left = .ok later) :
    later.length ≤ left.length := by
  fun_induction passNumeral seenPoint left with
  | case1 =>
      cases passes
      exact Nat.le_refl _
  | case2 => contradiction
  | case3 seenPoint position left notSeen ih =>
      exact (ih passes).trans (Nat.le_succ _)
  | case4 seenPoint position character left notPoint isDigit ih =>
      exact (ih passes).trans (Nat.le_succ _)
  | case5 =>
      cases passes
      exact Nat.le_refl _

theorem length_of_readNumeral
    (reads : readNumeral source start left = .ok (lexeme, later)) :
    later.length ≤ left.length := by
  obtain ⟨first, -, reads⟩ := bind_eq_ok_iff.mp reads
  obtain ⟨passed, passes, reads⟩ := bind_eq_ok_iff.mp reads
  obtain ⟨numeral, -, reads⟩ := bind_eq_ok_iff.mp reads
  have shorter := length_of_passNumeral passes
  have dropped := (List.dropWhile_suffix (l := passed)
    (fun (_, character) => isBlank character)).length_le
  split at reads
  · contradiction
  split at reads
  next isNone =>
      cases reads
      simp
  next position next others isSome =>
      split at reads
      · contradiction
      · cases reads
        rw [isSome] at dropped
        omega

theorem length_of_readVisible {first : Char}
    (reads : readVisible source start first left = .ok (lexeme, later)) :
    later.length ≤ left.length := by
  unfold readVisible at reads
  dsimp only at reads
  split at reads
  · exact length_of_readNumeral reads
  iterate 3
    split at reads
    · cases reads
      exact Nat.le_refl _
  obtain ⟨isDerivative, -, reads⟩ := bind_eq_ok_iff.mp reads
  split at reads
  · cases reads
    exact (List.drop_suffix _ left).length_le
  split at reads
  · obtain ⟨name, -, reads⟩ := bind_eq_ok_iff.mp reads
    cases reads
    exact (List.dropWhile_suffix _).length_le
  split at reads
  · cases reads
    exact Nat.le_refl _
  · contradiction

theorem length_of_nextLexeme
    (reads : nextLexeme source left = .ok (some (lexeme, later))) :
    later.length < left.length := by
  induction left with
  | nil => simp [nextLexeme] at reads
  | cons next left ih =>
      rw [nextLexeme] at reads
      split at reads
      · exact (ih reads).trans (Nat.lt_succ_self _)
      · cases isRead : readVisible source next.1 next.2 left with
        | error stop =>
            rw [isRead] at reads
            contradiction
        | ok result =>
            rw [isRead] at reads
            cases reads
            exact Nat.lt_succ_of_le (length_of_readVisible isRead)

end Length

/-- The token of a lexeme, where an identifier is looked up. -/
def tokenOf (classify : Text → Option Token.Kind) :
    Lexeme → Except (Stop SyntaxError) Token
  | .token token => .ok token
  | .identifier name position =>
      match classify name with
      | some kind => .ok ⟨kind, name, position⟩
      | none => .error (.refusal ⟨.unknownIdentifier name, position⟩)

/-- Read lexemes until nothing is left. -/
def readLexemes (classify : Text → Option Token.Kind) (source : Text)
    (left : Left) : Except (Stop SyntaxError) (List Token) :=
  match _ : nextLexeme source left with
  | .error stop => .error stop
  | .ok none => .ok []
  | .ok (some (lexeme, later)) => do
      let token ← tokenOf classify lexeme
      let tokens ← readLexemes classify source later
      return token :: tokens
termination_by left.length
decreasing_by exact length_of_nextLexeme (by assumption)

/-- Split a source into tokens, with slices of it. -/
def tokenizeBySlices (classify : Text → Option Token.Kind) (source : Text) :
    Except (Stop SyntaxError) (List Token) :=
  match find? (· = '=') source with
  | some position => .error (.refusal ⟨.containsEquals, position⟩)
  | none => do
      (check source).mapError .refusal
      readLexemes classify source (charIndices 0 source)

section Forgetting

variable {Value Result : Type}

/-- The end of a reader that does not go on after a mistake. -/
def forget : EStateM.Result (Stop SyntaxError) Left Value →
    Except (Stop SyntaxError) (Value × Left)
  | .ok value later => .ok (value, later)
  | .error stop _ => .error stop

theorem forget_bind (program : Reader Value) (next : Value → Reader Result)
    (left : Left) :
    forget ((program >>= next) left) =
      forget (program left) >>= fun (value, later) =>
        forget (next value later) := by
  change forget (EStateM.bind program next left) = _
  unfold EStateM.bind
  cases program left <;> rfl

theorem forget_ofSlice_bind (result : Except (Stop SyntaxError) Value)
    (next : Value → Reader Result) (left : Left) :
    forget ((Reader.ofSlice result >>= next) left) =
      result >>= fun value => forget (next value left) := by
  cases result <;> rfl

theorem passNumeral_eq_forget (seenPoint : Bool) (left : Left) :
    passNumeral seenPoint left =
      (forget (Reader.passNumeral seenPoint left)).map Prod.snd := by
  fun_induction Reader.passNumeral seenPoint left with
  | case1 => rfl
  | case2 => rfl
  | case3 seenPoint position left notSeen ih =>
      rw [passNumeral, if_pos rfl, if_neg notSeen, ih]
  | case4 seenPoint position character left notPoint isDigit ih =>
      rw [passNumeral, if_neg notPoint, if_pos isDigit, ih]
  | case5 seenPoint position character left notPoint notDigit =>
      rw [passNumeral, if_neg notPoint, if_neg notDigit]
      rfl

theorem readNumeral_eq_forget (source : Text) (start : Nat) (left : Left) :
    readNumeral source start left =
      forget (Reader.readNumeral source start left) := by
  unfold readNumeral Reader.readNumeral
  rw [forget_ofSlice_bind]
  congr 1
  funext first
  rw [passNumeral_eq_forget, forget_bind]
  cases forget (Reader.passNumeral (first = ['.']) left) with
  | error stop => rfl
  | ok passed =>
      obtain ⟨⟨⟩, later⟩ := passed
      change slice source start (offsetOf source later) >>= _ =
        forget ((Reader.ofSlice (slice source start (offsetOf source later)) >>=
          _) later)
      rw [forget_ofSlice_bind]
      congr 1
      funext numeral
      split
      · rfl
      change _ = forget ((Reader.refuseNumeral >>= fun _ => _)
        (later.dropWhile fun (_, character) => isBlank character))
      dsimp only
      cases later.dropWhile fun (_, character) => isBlank character with
      | nil => rfl
      | cons following others =>
          obtain ⟨position, next⟩ := following
          dsimp only
          split
          next isNext =>
              rw [bind_of_error
                (Reader.refuseNumeral_of_pos isNext position others)]
              rfl
          next notNext =>
              rw [bind_of_ok
                (Reader.refuseNumeral_of_neg notNext position others)]
              rfl

theorem readVisible_eq_forget (source : Text) (start : Nat) (first : Char)
    (left : Left) :
    readVisible source start first left =
      forget (Reader.readVisible source start first left) := by
  unfold readVisible Reader.readVisible
  dsimp only
  split
  · exact readNumeral_eq_forget source start left
  split
  · rfl
  split
  · rfl
  split
  · rfl
  rw [forget_ofSlice_bind]
  congr 1
  funext isDerivative
  split
  · rfl
  split
  · change _ = forget ((Reader.ofSlice (slice source start (offsetOf source
      (left.dropWhile fun (_, character) => isNameCharacter character))) >>= _)
        _)
    rw [forget_ofSlice_bind]
    rfl
  cases Operator.ofChar? first <;> rfl

end Forgetting

/-- What a reader finds at the start of a text: the lexeme of its first segment,
with what is left behind it, or the mistake of that segment. -/
inductive IsNext (position : Nat) (text : Text) :
    Segment → Except (Stop SyntaxError) (Lexeme × Left) → Prop
  | token {kind : Token.Kind} {word blanks later : Text}
      (white : IsWhite blanks) (split : word ++ (blanks ++ later) = text) :
      IsNext position text ⟨word, .token kind⟩
        (.ok (.token ⟨kind, word, position⟩,
          charIndices (position + byteSize word + byteSize blanks) later))
  | identifier {word later : Text} (split : word ++ later = text) :
      IsNext position text ⟨word, .identifier⟩
        (.ok (.identifier word position,
          charIndices (position + byteSize word) later))
  | mistake (word : Text) (cause : SyntaxCause) (offset : Nat) :
      IsNext position text ⟨word, .mistake cause offset⟩
        (.error (.refusal ⟨cause, position + offset⟩))

theorem IsNext.of_finds {position : Nat} {text : Text} {piece : Segment}
    {result : EStateM.Result (Stop SyntaxError) Left Lexeme}
    (finds : Reader.Finds position text piece result) :
    IsNext position text piece (forget result) := by
  cases finds with
  | token white split => exact .token white split
  | identifier split => exact .identifier split
  | mistake cause offset => exact .mistake _ cause offset

/-- The lexeme that begins with a visible character is read from the segment
that begins there. -/
theorem isNext_readVisible (front : Text) {first : Char}
    (visible : isBlank first = false) (others : Text) :
    IsNext (byteSize front) (first :: others)
      (Segment.beginning first others)
      (readVisible (front ++ first :: others) (byteSize front) first
        (charIndices (byteSize front + first.utf8Size) others)) := by
  rw [readVisible_eq_forget]
  exact .of_finds (Reader.finds_readVisible front visible others)

variable {classify : Text → Option Token.Kind} {source : Text}

theorem readLexemes_nil : readLexemes classify source [] = .ok [] := by
  rw [readLexemes]
  rfl

theorem readLexemes_blank {start : Nat} {first : Char}
    (white : isBlank first = true) (left : Left) :
    readLexemes classify source ((start, first) :: left) =
      readLexemes classify source left := by
  rw [readLexemes, nextLexeme, if_pos white]
  conv => rhs; rw [readLexemes]

theorem readLexemes_visible {start : Nat} {first : Char}
    (visible : isBlank first = false) (left : Left) :
    readLexemes classify source ((start, first) :: left) = do
      let (lexeme, later) ← readVisible source start first left
      let token ← tokenOf classify lexeme
      let tokens ← readLexemes classify source later
      return token :: tokens := by
  rw [readLexemes, nextLexeme, if_neg (by simp [visible])]
  cases readVisible source start first left <;> rfl

/-- A lexeme gives the token of its segment, if what is left behind it gives the
tokens of the segments there. -/
theorem IsNext.reads_eq {position : Nat} {text : Text} {piece : Segment}
    {result : Except (Stop SyntaxError) (Lexeme × Left)}
    (isNext : IsNext position text piece result) (nonempty : piece.text ≠ [])
    (advance : ∀ word after, word ≠ [] → word ++ after = text →
      readLexemes classify source
          (charIndices (position + byteSize word) after) =
        (readTokens classify (locate (position + byteSize word)
          (segments after))).mapError .refusal) :
    (do
        let (lexeme, later) ← result
        let token ← tokenOf classify lexeme
        let tokens ← readLexemes classify source later
        return token :: tokens) =
      (readTokens classify (locate position
        (piece :: segments (text.drop piece.text.length)))).mapError
          .refusal := by
  cases isNext with
  | @token kind word blanks later white isText =>
      have reads := advance (word ++ blanks) later
        (List.append_ne_nil_of_left_ne_nil nonempty blanks)
        ((List.append_assoc ..).trans isText)
      rw [byteSize_append, ← Nat.add_assoc] at reads
      rw [ok_bind]
      dsimp only
      rw [tokenOf, ok_bind, reads, ← isText, List.drop_left,
        segments_blanks_append white, locate, readTokens,
        readTokens_blanks white, mapError_bind]
      rfl
  | @identifier word later isText =>
      have reads := advance word later nonempty isText
      rw [ok_bind]
      dsimp only
      rw [tokenOf, reads, ← isText, List.drop_left, locate, readTokens]
      dsimp only
      cases classify word with
      | none => rfl
      | some kind =>
          dsimp only
          rw [ok_bind, mapError_bind]
          rfl
  | mistake word cause offset => rfl

/-- The lexemes of what is left are the tokens of its segments. -/
theorem readLexemes_eq {front rest : Text} (split : front ++ rest = source) :
    readLexemes classify source (charIndices (byteSize front) rest) =
      (readTokens classify (locate (byteSize front) (segments rest))).mapError
        .refusal := by
  induction size : rest.length using Nat.strongRecOn
    generalizing front rest with
  | ind bound ih =>
      cases rest with
      | nil =>
          rw [charIndices, readLexemes_nil, segments_nil]
          rfl
      | cons first others =>
          have advance (word after : Text) (nonempty : word ≠ [])
              (isRest : word ++ after = first :: others) :
              readLexemes classify source
                  (charIndices (byteSize front + byteSize word) after) =
                (readTokens classify (locate (byteSize front + byteSize word)
                  (segments after))).mapError .refusal := by
            rw [← byteSize_append]
            refine ih after.length ?_ (by rw [← split, ← isRest]; simp) rfl
            have lengths := congrArg List.length isRest
            have positive := List.length_pos_iff.mpr nonempty
            rw [List.length_append] at lengths
            omega
          cases visible : isBlank first with
          | true =>
              have skips := advance [first] others (by simp) rfl
              rw [byteSize_cons, byteSize_nil, Nat.add_zero] at skips
              rw [charIndices, readLexemes_blank visible, skips,
                segments_blank visible, locate, readTokens]
              simp
          | false =>
              have isNext := isNext_readVisible front visible others
              rw [split] at isNext
              rw [charIndices, readLexemes_visible visible, segments_cons]
              exact isNext.reads_eq (Segment.beginning_text_ne_nil first others)
                advance

/-- No slice stops the reading, and it reads the tokens of the source. -/
theorem tokenizeBySlices_eq (classify : Text → Option Token.Kind)
    (source : Text) :
    tokenizeBySlices classify source =
      (tokenize classify source).mapError .refusal := by
  unfold tokenizeBySlices tokenize
  rw [find?_eq_splitAtFirst?]
  cases splitAtFirst? '=' source with
  | some parts => rfl
  | none =>
      have reads : readLexemes classify source (charIndices 0 source) = _ :=
        readLexemes_eq (List.nil_append source)
      dsimp only [Option.map_none]
      rw [reads]
      cases check source <;> rfl

end Source
end GraphingCalculator
