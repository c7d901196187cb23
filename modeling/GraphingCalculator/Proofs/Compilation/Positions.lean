import GraphingCalculator.Proofs.Compilation.References
import GraphingCalculator.Proofs.Source.Parts
import GraphingCalculator.Proofs.Token.Stacks
import GraphingCalculator.Proofs.Token.Tree

/-!
# The characters that errors are blamed on

The checks on the characters of a source and the split into segments blame the
character that an error is noticed at.  Tokens begin where their segments do,
and every later stage blames the position of a token, or the start of the
source.  So each error of a compilation is reported where a character of the
source begins, if the source has any.
-/

namespace GraphingCalculator

namespace Text

/-- A position between two characters of a text, or at one of its ends. -/
def IsBoundary (text : Text) (position : Nat) : Prop :=
  ∃ before after, before ++ after = text ∧ byteSize before = position

variable {text : Text} {position : Nat}

theorem utf8ByteSize_ofList (text : Text) :
    (String.ofList text).utf8ByteSize = byteSize text := by
  induction text with
  | nil => rfl
  | cons first rest ih =>
      rw [String.ofList_cons]
      simp [ih]

/-- The bytes of a part of a text. -/
theorem extract_toByteArray (front middle back : Text) :
    (String.ofList (front ++ (middle ++ back))).toByteArray.extract
        (byteSize front) (byteSize front + byteSize middle) =
      (String.ofList middle).toByteArray := by
  have size (text : Text) :
      byteSize text = (String.ofList text).toByteArray.size := by
    rw [String.size_toByteArray, utf8ByteSize_ofList]
  rw [String.ofList_append, String.ofList_append, String.toByteArray_append,
    String.toByteArray_append, size front, size middle]
  have behindFront := ByteArray.extract_append_size_add (i := 0)
    (j := (String.ofList middle).toByteArray.size)
    (a := (String.ofList front).toByteArray)
    (b := (String.ofList middle).toByteArray ++
      (String.ofList back).toByteArray)
  rw [Nat.add_zero] at behindFront
  rw [behindFront, ByteArray.extract_append_eq_left rfl]

/-- The boundaries of a text are those of its UTF-8 encoding. -/
theorem isBoundary_iff_isValid :
    IsBoundary text position ↔
      String.Pos.Raw.IsValid (String.ofList text) ⟨position⟩ := by
  rw [String.Pos.Raw.isValid_ofList]
  simp only [utf8ByteSize_ofList]
  constructor
  · rintro ⟨before, after, rfl, rfl⟩
    exact ⟨before.length, by rw [List.take_left]⟩
  · rintro ⟨count, same⟩
    exact ⟨text.take count, text.drop count, List.take_append_drop count text,
      same.symm⟩

/-- A part of a text begins and ends between characters, and its bytes are those
of the text there. -/
theorem isValid_and_extract (front middle back : Text) :
    let text := String.ofList (front ++ (middle ++ back))
    let finish := byteSize front + byteSize middle
    String.Pos.Raw.IsValid text ⟨byteSize front⟩ ∧
      String.Pos.Raw.IsValid text ⟨finish⟩ ∧
      text.toByteArray.extract (byteSize front) finish =
        (String.ofList middle).toByteArray := by
  refine ⟨isBoundary_iff_isValid.mp ⟨front, middle ++ back, rfl, rfl⟩,
    isBoundary_iff_isValid.mp ⟨front ++ middle, back, ?_, ?_⟩,
    extract_toByteArray front middle back⟩
  · rw [List.append_assoc]
  · rw [byteSize_append]

/-- A position at which a character of a text begins. -/
def IsStart (text : Text) (position : Nat) : Prop :=
  ∃ before character after, before ++ character :: after = text ∧
    byteSize before = position

theorem IsBoundary.le_byteSize (boundary : IsBoundary text position) :
    position ≤ byteSize text := by
  obtain ⟨before, after, rfl, rfl⟩ := boundary
  rw [byteSize_append]
  omega

theorem isBoundary_byteSize (text : Text) : IsBoundary text (byteSize text) :=
  ⟨text, [], by simp, rfl⟩

theorem IsStart.isBoundary (start : IsStart text position) :
    IsBoundary text position := by
  obtain ⟨before, character, after, split, size⟩ := start
  exact ⟨before, character :: after, split, size⟩

theorem isStart_zero (nonempty : text ≠ []) : IsStart text 0 := by
  cases text with
  | nil => contradiction
  | cons first rest => exact ⟨[], first, rest, rfl, rfl⟩

theorem isStart_append (before : Text) {rest : Text} (nonempty : rest ≠ []) :
    IsStart (before ++ rest) (byteSize before) := by
  cases rest with
  | nil => contradiction
  | cons character after => exact ⟨before, character, after, rfl, rfl⟩

/-- Characters that stand in a text stand in every longer one. -/
theorem IsStart.append (start : IsStart text position) (front back : Text) :
    IsStart (front ++ (text ++ back)) (byteSize front + position) := by
  obtain ⟨before, character, after, rfl, rfl⟩ := start
  exact ⟨front ++ before, character, after ++ back, by simp,
    byteSize_append front before⟩

end Text

open Text

namespace Source

section Characters

variable {source : Text} {error : SyntaxError}

/-- Parentheses that are open, and those that are not, are blamed where they
stand. -/
theorem isStart_of_checkParentheses (front : Text) {text : Text}
    {opened : List Nat} (split : front ++ text = source)
    (isOpened : ∀ position ∈ opened, IsStart source position)
    (fails : checkParentheses (byteSize front) opened text = .error error) :
    IsStart source error.position := by
  induction text generalizing front opened with
  | nil =>
      cases opened with
      | nil => contradiction
      | cons innermost outer =>
          cases fails
          exact isOpened innermost List.mem_cons_self
  | cons character rest ih =>
      have here : IsStart source (byteSize front) :=
        ⟨front, character, rest, split, rfl⟩
      have continues {inner : List Nat}
          (isInner : ∀ position ∈ inner, IsStart source position)
          (fails : checkParentheses (byteSize front + character.utf8Size) inner
            rest = .error error) : IsStart source error.position := by
        refine ih (front ++ [character]) (by simp [← split]) isInner ?_
        simpa using fails
      unfold checkParentheses at fails
      dsimp only at fails
      split at fails
      · exact continues (List.forall_mem_cons.mpr ⟨here, isOpened⟩) fails
      split at fails
      · cases opened with
        | nil =>
            cases fails
            exact here
        | cons innermost outer =>
            exact continues (List.forall_mem_cons.mp isOpened).2 fails
      · exact continues isOpened fails

theorem isStart_of_checkOperatorRuns (front : Text) {text : Text}
    (after : Bool) (split : front ++ text = source)
    (fails : checkOperatorRuns (byteSize front) after text = .error error) :
    IsStart source error.position := by
  induction text generalizing front after with
  | nil => contradiction
  | cons character rest ih =>
      unfold checkOperatorRuns at fails
      dsimp only at fails
      split at fails
      · cases fails
        exact ⟨front, character, rest, split, rfl⟩
      · refine ih (front ++ [character]) (isOperatorCharacter character)
          (by simp [← split]) ?_
        simpa using fails

theorem isStart_of_checkEnd (fails : checkEnd source = .error error) :
    IsStart source error.position := by
  unfold checkEnd at fails
  split at fails
  next last isLast =>
      split at fails
      · cases fails
        obtain ⟨blanks, -, split⟩ := trimEnd_append_blanks source
        rw [← List.dropLast_append_getLast? last isLast, List.append_assoc]
          at split
        exact ⟨_, last, blanks, split, rfl⟩
      · contradiction
  next => contradiction

theorem isStart_of_check (nonempty : source ≠ [])
    (fails : check source = .error error) :
    IsStart source error.position := by
  unfold check at fails
  split at fails
  · cases fails
    exact isStart_zero nonempty
  rcases bind_eq_error_iff.mp fails with fails | ⟨_, -, fails⟩
  · exact isStart_of_checkParentheses [] rfl (by simp) fails
  rcases bind_eq_error_iff.mp fails with fails | ⟨_, -, fails⟩
  · exact isStart_of_checkOperatorRuns [] true rfl fails
  · exact isStart_of_checkEnd fails

end Characters

end Source

namespace Segment

variable {cause : SyntaxCause} {offset : Nat}

/-- Another number behind a numeral is blamed where it begins, and so is a
second point. -/
theorem isStart_of_numeralSegment {text : Text} (nonempty : text ≠ [])
    (isMistake : (numeralSegment text).reading = .mistake cause offset) :
    IsStart text offset := by
  obtain ⟨after, isNumeral⟩ := isPrefix_of_numeralText text
  have drops : text.drop (numeralText text).length = after := by
    conv => lhs; rw [← isNumeral]
    rw [List.drop_left']
    simp [isNumeral]
  have blanks := after.takeWhile_append_dropWhile (p := isBlank)
  unfold numeralSegment at isMistake
  simp only [drops] at isMistake
  split at isMistake
  next secondPoint =>
      cases isMistake
      obtain ⟨others, rfl⟩ := List.head?_eq_some_iff.mp secondPoint
      exact ⟨_, '.', others, isNumeral, rfl⟩
  split at isMistake
  · cases isMistake
    exact isStart_zero nonempty
  unfold numeralReading at isMistake
  dsimp only at isMistake
  split at isMistake
  · contradiction
  next next others isVisible =>
      split at isMistake
      · cases isMistake
        refine ⟨numeralText text ++ after.takeWhile isBlank, next, others, ?_,
          byteSize_append _ _⟩
        rw [List.append_assoc, ← isVisible, blanks, isNumeral]
      · contradiction

/-- A mistake is blamed on a character of the text that it was read from. -/
theorem isStart_of_beginning {first : Char} {rest : Text}
    (isMistake : (beginning first rest).reading = .mistake cause offset) :
    IsStart (first :: rest) offset := by
  have nonempty := List.cons_ne_nil first rest
  by_cases isNumeral : isBlank first = false ∧
      (first.isDigit || first = '.') = true
  · rw [beginning, isNumeral.1, if_neg Bool.false_ne_true, if_pos isNumeral.2]
      at isMistake
    exact isStart_of_numeralSegment nonempty isMistake
  · unfold beginning at isMistake
    split at isMistake
    · contradiction
    next visible =>
        rw [if_neg fun digit => isNumeral ⟨by simpa using visible, digit⟩]
          at isMistake
        repeat' split at isMistake
        all_goals cases isMistake
        exact isStart_zero nonempty

end Segment

/-- Each located segment begins behind the segments before it. -/
theorem exists_split_of_mem_locate {pieces : List Segment} {start : Nat}
    {located : Nat × Segment} (member : located ∈ locate start pieces) :
    ∃ before after, pieces = before ++ located.2 :: after ∧
      located.1 = start + byteSize (before.flatMap Segment.text) := by
  induction pieces generalizing start with
  | nil => simp [locate] at member
  | cons piece rest ih =>
      rcases List.mem_cons.mp member with rfl | later
      · exact ⟨[], rest, rfl, by simp⟩
      · obtain ⟨before, after, rfl, isStart⟩ := ih later
        exact ⟨piece :: before, after, rfl, by simp [isStart, Nat.add_assoc]⟩

theorem isStart_of_mem_locate {source : Text} {located : Nat × Segment}
    (member : located ∈ locate 0 (segments source)) :
    IsStart source located.1 ∧ ∀ cause offset,
      located.2.reading = .mistake cause offset →
        IsStart source (located.1 + offset) := by
  obtain ⟨before, after, split, isStart⟩ := exists_split_of_mem_locate member
  have isSource : before.flatMap Segment.text ++
      (located.2 :: after).flatMap Segment.text = source := by
    rw [← List.flatMap_append, ← split, flatMap_text_segments]
  rw [Nat.zero_add] at isStart
  obtain ⟨first, rest, isText, begins⟩ :=
    Segment.isRead_of_suffix ⟨before, split.symm⟩
  rw [List.flatMap_cons, isText, List.cons_append] at isSource
  refine ⟨⟨_, first, _, isSource, isStart.symm⟩,
    fun cause offset isMistake => ?_⟩
  rw [← begins] at isMistake
  have start := (Segment.isStart_of_beginning isMistake).append
    (before.flatMap Segment.text) []
  rwa [List.append_nil, isSource, ← isStart] at start

section Stages

variable {good : Nat → Prop} {tokens : List Token} {error : SyntaxError}

/-- Tokens begin where their segments do, and a segment that is not read is
blamed at its start or by its own mistake. -/
theorem Source.position_of_readTokens {classify : Text → Option Token.Kind}
    {pieces : List (Nat × Segment)}
    (located : ∀ piece ∈ pieces, good piece.1 ∧ ∀ cause offset,
      piece.2.reading = .mistake cause offset → good (piece.1 + offset)) :
    (∀ tokens, readTokens classify pieces = .ok tokens →
        ∀ token ∈ tokens, good token.position) ∧
      ∀ error, readTokens classify pieces = .error error →
        good error.position := by
  induction pieces with
  | nil =>
      refine ⟨fun tokens reads => ?_, fun error fails => ?_⟩
      · cases reads
        simp
      · contradiction
  | cons piece rest ih =>
      obtain ⟨position, segment⟩ := piece
      obtain ⟨⟨here, mistaken⟩, later⟩ := List.forall_mem_cons.mp located
      obtain ⟨restReads, restFails⟩ := ih later
      have continues (kind : Token.Kind) :
          (∀ tokens, (do
              let others ← readTokens classify rest
              return Token.mk kind segment.text position :: others) =
                .ok tokens →
            ∀ token ∈ tokens, good token.position) ∧
          ∀ error, (do
              let others ← readTokens classify rest
              return Token.mk kind segment.text position :: others) =
                .error error → good error.position := by
        refine ⟨fun tokens reads => ?_, fun error fails => ?_⟩
        · obtain ⟨others, readsRest, reads⟩ := bind_eq_ok_iff.mp reads
          cases reads
          exact List.forall_mem_cons.mpr ⟨here, restReads others readsRest⟩
        · rcases bind_eq_error_iff.mp fails with fails | ⟨_, -, fails⟩
          · exact restFails error fails
          · contradiction
      rw [readTokens]
      split
      next => exact ih later
      next kind _ => exact continues kind
      next =>
          split
          next kind _ => exact continues kind
          next =>
              refine ⟨fun tokens reads => ?_, fun error fails => ?_⟩
              · contradiction
              · cases fails
                exact here
      next cause offset isMistake =>
          refine ⟨fun tokens reads => ?_, fun error fails => ?_⟩
          · contradiction
          · cases fails
            exact mistaken cause offset isMistake

theorem Token.position_of_checkPairs
    (places : ∀ token ∈ tokens, good token.position)
    (fails : checkPairs tokens = .error error) : good error.position := by
  fun_induction checkPairs tokens with
  | case1 first second rest cause isFault =>
      cases fails
      exact places second (by simp)
  | case2 first second rest noFault ih =>
      exact ih (List.forall_mem_cons.mp places).2 fails
  | case3 => contradiction

theorem Token.position_of_checkAdjacency (atStart : good 0)
    (places : ∀ token ∈ tokens, good token.position)
    (fails : checkAdjacency tokens = .error error) : good error.position := by
  unfold checkAdjacency at fails
  split at fails
  next first last isFirst isLast =>
      rcases bind_eq_error_iff.mp fails with fails | ⟨_, -, fails⟩
      · exact position_of_checkPairs places fails
      unfold checkEnds at fails
      split at fails
      · cases fails
        exact places first (List.mem_of_head? isFirst)
      split at fails
      · cases fails
        exact places last (List.mem_of_getLast? isLast)
      · contradiction
  next =>
      cases fails
      exact atStart

namespace Postfix.State

variable {state next : State} {token : Token}

/-- A token that is implied stands where the token stands that implies it. -/
theorem position_of_read
    (places : ∀ other ∈ state.tokens, good other.position)
    (here : good token.position) (reads : state.read token = .ok next) :
    ∀ other ∈ next.tokens, good other.position := by
  intro other member
  rcases (perm_read reads).2 with
    ⟨-, adds⟩ | ⟨-, opening, -, takes⟩
  · have origin := adds.mem_iff.mp member
    simp only [List.mem_cons, List.mem_append, impliedZeros, impliedProducts]
      at origin
    rcases origin with rfl | isZero | isProduct | before
    · exact here
    · split at isZero
      · rw [List.mem_singleton.mp isZero]
        exact here
      · simp at isZero
    · split at isProduct
      · rw [List.mem_singleton.mp isProduct]
        exact here
      · simp at isProduct
    · exact places other before
  · exact places other (takes.mem_iff.mpr (List.mem_cons_of_mem _ member))

theorem position_of_read_error (here : good token.position)
    (fails : state.read token = .error error) : good error.position := by
  unfold read at fails
  dsimp only at fails
  split at fails
  case h_7 =>
      unfold closeParenthesis at fails
      dsimp only at fails
      split at fails
      · cases fails
        exact here
      · contradiction
      · split at fails <;> contradiction
  all_goals contradiction

theorem position_of_readAll (state : State)
    (placesState : ∀ token ∈ state.tokens, good token.position)
    (places : ∀ token ∈ tokens, good token.position) :
    (∀ next, tokens.foldlM read state = .ok next →
        ∀ token ∈ next.tokens, good token.position) ∧
      ∀ error, tokens.foldlM read state = .error error →
        good error.position := by
  induction tokens generalizing state with
  | nil =>
      refine ⟨fun next reads => ?_, fun error fails => ?_⟩
      · cases reads
        exact placesState
      · contradiction
  | cons token rest ih =>
      obtain ⟨here, later⟩ := List.forall_mem_cons.mp places
      rw [List.foldlM_cons]
      refine ⟨fun next reads => ?_, fun error fails => ?_⟩
      · obtain ⟨middle, reads, readsRest⟩ := bind_eq_ok_iff.mp reads
        exact (ih middle (position_of_read placesState here reads) later).1 next
          readsRest
      · rcases bind_eq_error_iff.mp fails with fails | ⟨middle, reads, fails⟩
        · exact position_of_read_error here fails
        · exact (ih middle (position_of_read placesState here reads) later).2
            error fails

end Postfix.State

theorem Token.position_of_toPostfix
    (places : ∀ token ∈ tokens, good token.position) :
    (∀ ordered, toPostfix tokens = .ok ordered →
        ∀ token ∈ ordered, good token.position) ∧
      ∀ error, toPostfix tokens = .error error → good error.position := by
  obtain ⟨reads, fails⟩ :=
    Postfix.State.position_of_readAll .initial (by
      simp [Postfix.State.tokens, Postfix.State.initial]) places
  refine ⟨fun ordered converts => ?_, fun error failsConversion => ?_⟩
  · obtain ⟨state, readsState, finishes⟩ := bind_eq_ok_iff.mp converts
    unfold Postfix.State.finish at finishes
    split at finishes
    · contradiction
    · cases finishes
      intro token member
      refine reads state readsState token ?_
      simpa [Postfix.State.tokens] using member
  · rcases bind_eq_error_iff.mp failsConversion with
      failsReading | ⟨state, readsState, failsFinish⟩
    · exact fails error failsReading
    · unfold Postfix.State.finish at failsFinish
      split at failsFinish
      next opening isFound =>
          cases failsFinish
          exact reads state readsState opening
            (List.mem_append_right _ (List.mem_of_find?_eq_some isFound))
      next => contradiction

/-- A missing operand is blamed on the token that it belongs to. -/
theorem Expression.position_of_build {maxDepth depth position : Nat}
    {reversed : List Token} (here : good position)
    (places : ∀ token ∈ reversed, good token.position)
    (fails : build maxDepth depth position reversed = .error error) :
    good error.position := by
  unfold build at fails
  split at fails
  · cases fails
    exact here
  split at fails
  · cases fails
    exact here
  next token rest =>
      obtain ⟨isToken, placesRest⟩ := List.forall_mem_cons.mp places
      split at fails
      next =>
          split at fails
          · contradiction
          · cases fails
            exact isToken
      next => contradiction
      next => contradiction
      next =>
          rcases bind_eq_error_iff.mp fails with
            failsRight | ⟨⟨right, beforeRight, shorter⟩, buildsRight, fails⟩
          · exact position_of_build isToken placesRest failsRight
          obtain ⟨tree, -, isWriting, -⟩ := exists_tree_of_build buildsRight
          have placesBefore : ∀ other ∈ beforeRight, good other.position :=
            fun other member => placesRest other
              (isWriting ▸ List.mem_append_right _ member)
          rcases bind_eq_error_iff.mp fails with failsLeft | ⟨_, -, fails⟩
          · exact position_of_build isToken placesBefore failsLeft
          · contradiction
      next =>
          rcases bind_eq_error_iff.mp fails with failsArgument | ⟨_, -, fails⟩
          · exact position_of_build isToken placesRest failsArgument
          · contradiction
      all_goals
        cases fails
        exact isToken
termination_by reversed.length
decreasing_by
  all_goals
    subst_vars
    simp only [List.length_cons] at *
    omega

theorem Expression.position_of_ofPostfix (atStart : good 0) {maxDepth : Nat}
    (places : ∀ token ∈ tokens, good token.position)
    (fails : ofPostfix maxDepth tokens = .error error) :
    good error.position := by
  have placesReversed : ∀ token ∈ tokens.reverse, good token.position :=
    fun token member => places token (List.mem_reverse.mp member)
  have isLast :
      good ((tokens.reverse.head?.map Token.position).getD 0) := by
    cases isHead : tokens.reverse.head? with
    | none => exact atStart
    | some last => exact placesReversed last (List.mem_of_head? isHead)
  rw [ofPostfix] at fails
  rcases bind_eq_error_iff.mp fails with
    failsBuild | ⟨⟨expression, leftover, shorter⟩, builds, fails⟩
  · exact position_of_build isLast placesReversed failsBuild
  · obtain ⟨tree, -, isWriting, -⟩ := exists_tree_of_build builds
    dsimp only at fails isWriting
    split at fails
    · contradiction
    next extra rest =>
        cases fails
        exact placesReversed extra (by rw [isWriting]; simp)

end Stages

namespace Source

variable {classify : Text → Option Token.Kind} {source : Text}

theorem isStart_of_tokenize {tokens : List Token}
    (reads : tokenize classify source = .ok tokens) :
    ∀ token ∈ tokens, IsStart source token.position := by
  unfold tokenize at reads
  split at reads
  · contradiction
  obtain ⟨-, reads⟩ := check_bind_eq_ok_iff.mp reads
  exact (position_of_readTokens fun piece => isStart_of_mem_locate).1 tokens
    reads

theorem isStart_of_tokenize_error (nonempty : source ≠ [])
    {error : SyntaxError} (fails : tokenize classify source = .error error) :
    IsStart source error.position := by
  unfold tokenize at fails
  split at fails
  next before after split =>
      cases fails
      exact ⟨before, '=', after, append_of_splitAtFirst?_eq_some split, rfl⟩
  rcases bind_eq_error_iff.mp fails with fails | ⟨_, -, fails⟩
  · exact isStart_of_check nonempty fails
  · exact (position_of_readTokens fun piece => isStart_of_mem_locate).2
      error fails

end Source

namespace Environment

variable {environment : Environment} {source : Text} {error : SyntaxError}

/-- An error of a compilation is blamed on a character of the source. -/
theorem isStart_of_compile (nonempty : source ≠ [])
    (fails : environment.compile source = .error error) :
    IsStart source error.position := by
  have atStart := isStart_zero nonempty
  rcases bind_eq_error_iff.mp fails with fails | ⟨tokens, reads, fails⟩
  · exact Source.isStart_of_tokenize_error nonempty fails
  have places := Source.isStart_of_tokenize reads
  rcases bind_eq_error_iff.mp fails with fails | ⟨_, -, fails⟩
  · unfold checkLength at fails
    split at fails
    next token isFirst =>
        cases fails
        exact places token (List.mem_of_getElem? isFirst)
    next => contradiction
  rcases bind_eq_error_iff.mp fails with fails | ⟨_, -, fails⟩
  · exact Token.position_of_checkAdjacency atStart places fails
  obtain ⟨converts, failsConversion⟩ := Token.position_of_toPostfix places
  rcases bind_eq_error_iff.mp fails with fails | ⟨ordered, isOrdered, fails⟩
  · exact failsConversion error fails
  rcases bind_eq_error_iff.mp fails with fails | ⟨_, -, fails⟩
  · exact Expression.position_of_ofPostfix atStart
      (converts ordered isOrdered) fails
  · contradiction

/-- Without any character, the start is blamed. -/
theorem position_of_compile_nil
    (fails : environment.compile [] = .error error) : error.position = 0 := by
  cases fails
  rfl

theorem isBoundary_of_compile
    (fails : environment.compile source = .error error) :
    IsBoundary source error.position := by
  cases source with
  | nil =>
      rw [position_of_compile_nil fails]
      exact isBoundary_byteSize []
  | cons first rest =>
      exact (isStart_of_compile (List.cons_ne_nil first rest) fails).isBoundary

end Environment
end GraphingCalculator
