import GraphingCalculator.Environment.Compilation
import GraphingCalculator.Proofs.Parenthesis.Matching
import GraphingCalculator.Proofs.Source.Checking
import GraphingCalculator.Proofs.Source.Definitions
import GraphingCalculator.Proofs.Source.Replacement
import GraphingCalculator.Proofs.Source.Slices
import GraphingCalculator.Proofs.Token.Stacks

/-!
# Two passes over parentheses

The parentheses of a source are matched twice: its characters are checked with a
stack of positions, and its tokens are brought into postfix order with a stack
that holds functions and operators too.  Both are the same pass over the
parentheses alone, and so both blame the same one.
-/

namespace GraphingCalculator

namespace Parenthesis

/-- The parenthesis that a character is. -/
def ofCharacter? (position : Nat) (character : Char) : Option Parenthesis :=
  if character = '(' then some (opening position)
  else if character = ')' then some (closing position)
  else none

/-- The parentheses of a text that begins at a byte position. -/
def ofText (start : Nat) (text : Text) : List Parenthesis :=
  (Text.charIndices start text).filterMap fun (position, character) =>
    ofCharacter? position character

/-- The parenthesis that a token is. -/
def ofToken? (token : Token) : Option Parenthesis :=
  match token.kind with
  | .openParen => some (opening token.position)
  | .closeParen => some (closing token.position)
  | _ => none

/-- The parentheses among tokens. -/
def ofTokens (tokens : List Token) : List Parenthesis :=
  tokens.filterMap ofToken?

theorem ofText_cons (start : Nat) (character : Char) (rest : Text) :
    ofText start (character :: rest) =
      (ofCharacter? start character).toList ++
        ofText (start + character.utf8Size) rest := by
  rw [ofText, Text.charIndices, List.filterMap_cons]
  dsimp only
  cases ofCharacter? start character <;> rfl

theorem ofTokens_cons (token : Token) (rest : List Token) :
    ofTokens (token :: rest) = (ofToken? token).toList ++ ofTokens rest := by
  rw [ofTokens, List.filterMap_cons]
  cases ofToken? token <;> rfl

end Parenthesis

open Parenthesis

namespace SyntaxCause

/-- Check whether a cause is a parenthesis without a partner. -/
def isUnmatched : SyntaxCause → Bool
  | unmatchedClosing | unclosed => true
  | _ => false

theorem message_unknownIdentifier_ne (name : Text) {words : String}
    (startsOther : words.toList.take 3 ≠ ['u', 'n', 'k']) :
    (unknownIdentifier name).message ≠ words := by
  change "unknown identifier: " ++ String.ofList name ≠ words
  rintro rfl
  simp at startsOther

/-- The words for a parenthesis without a partner describe no other cause. -/
theorem message_ne_of_not_isUnmatched {cause : SyntaxCause}
    (isOther : cause.isUnmatched = false) :
    cause.message ≠ unmatchedClosing.message ∧
      cause.message ≠ unclosed.message := by
  cases cause with
  | unmatchedClosing | unclosed => cases isOther
  | unknownIdentifier name =>
      exact ⟨message_unknownIdentifier_ne name (by decide),
        message_unknownIdentifier_ne name (by decide)⟩
  | _ => decide

end SyntaxCause

namespace Source

variable {classify : Text → Option Token.Kind} {source : Text}
  {error : SyntaxError}

/-- The check on characters is the pass over their parentheses. -/
theorem checkParentheses_eq_scan (position : Nat) (opened : List Nat)
    (text : Text) :
    checkParentheses position opened text =
      scan opened (ofText position text) := by
  induction text generalizing position opened with
  | nil => cases opened <;> rfl
  | cons character rest ih =>
      rw [ofText_cons]
      unfold checkParentheses ofCharacter?
      dsimp only
      split
      · exact ih _ _
      split
      · cases opened with
        | nil => rfl
        | cons innermost outer => exact ih _ _
      · exact ih _ _

theorem check_of_visible (visible : ¬ Text.IsWhite source) :
    check source = (do
      scan [] (ofText 0 source)
      checkOperatorRuns 0 true source
      checkEnd source) := by
  obtain ⟨character, member, notBlank⟩ :
      ∃ character ∈ source, isBlank character = false := by
    simpa [Text.IsWhite] using visible
  rw [check, checkParentheses_eq_scan, isEmpty_trim notBlank member]
  rfl

theorem cause_of_checkOperatorRuns {text : Text} {position : Nat}
    {after : Bool}
    (fails : checkOperatorRuns position after text = .error error) :
    error.cause.isUnmatched = false := by
  induction text generalizing position after with
  | nil => contradiction
  | cons character rest ih =>
      unfold checkOperatorRuns at fails
      dsimp only at fails
      split at fails
      · cases fails
        rfl
      · exact ih fails

theorem cause_of_checkEnd (fails : checkEnd source = .error error) :
    error.cause.isUnmatched = false := by
  unfold checkEnd at fails
  split at fails
  · split at fails
    · cases fails
      rfl
    · contradiction
  · contradiction

theorem cause_of_numeralSegment {text : Text} {cause : SyntaxCause}
    {offset : Nat} (isMistake :
      (Segment.numeralSegment text).reading = .mistake cause offset) :
    cause.isUnmatched = false := by
  unfold Segment.numeralSegment at isMistake
  dsimp only at isMistake
  split at isMistake
  · cases isMistake
    rfl
  split at isMistake
  · cases isMistake
    rfl
  unfold Segment.numeralReading at isMistake
  split at isMistake
  · contradiction
  split at isMistake
  · cases isMistake
    rfl
  · contradiction

theorem cause_of_beginning {first : Char} {rest : Text} {cause : SyntaxCause}
    {offset : Nat} (isMistake :
      (Segment.beginning first rest).reading = .mistake cause offset) :
    cause.isUnmatched = false := by
  unfold Segment.beginning at isMistake
  split at isMistake
  · contradiction
  split at isMistake
  · exact cause_of_numeralSegment isMistake
  repeat' split at isMistake
  all_goals cases isMistake
  rfl

theorem cause_of_readTokens {pieces : List (Nat × Segment)}
    (mistakes : ∀ piece ∈ pieces, ∀ cause offset,
      piece.2.reading = .mistake cause offset → cause.isUnmatched = false)
    (fails : readTokens classify pieces = .error error) :
    error.cause.isUnmatched = false := by
  induction pieces with
  | nil => contradiction
  | cons piece rest ih =>
      obtain ⟨here, later⟩ := List.forall_mem_cons.mp mistakes
      have continues (token : Token) (fails : (do
          let tokens ← readTokens classify rest
          return token :: tokens) = .error error) :
          error.cause.isUnmatched = false := by
        rcases bind_eq_error_iff.mp fails with fails | ⟨tokens, -, ends⟩
        · exact ih later fails
        · contradiction
      rw [readTokens] at fails
      split at fails
      · exact ih later fails
      · exact continues _ fails
      · split at fails
        · exact continues _ fails
        · cases fails
          rfl
      next cause offset isMistake =>
          cases fails
          exact here cause offset isMistake

/-- A mistake in a segment does not blame a parenthesis. -/
theorem cause_of_mem_locate {piece : Nat × Segment} {cause : SyntaxCause}
    {offset : Nat} (member : piece ∈ locate 0 (segments source))
    (isMistake : piece.2.reading = .mistake cause offset) :
    cause.isUnmatched = false := by
  obtain ⟨before, after, split⟩ :=
    List.append_of_mem (mem_segments_of_mem_locate member)
  obtain ⟨first, rest, -, begins⟩ :=
    Segment.isRead_of_suffix ⟨before, split.symm⟩
  rw [← begins] at isMistake
  exact cause_of_beginning isMistake

/-- A source whose parentheses are not balanced is refused for that. -/
theorem tokenize_of_blames (noEquals : '=' ∉ source)
    (visible : ¬ Text.IsWhite source)
    (blames : Blames (ofText 0 source) error) :
    tokenize classify source = .error error := by
  have fails : scan [] (ofText 0 source) = .error error :=
    scan_eq_error_iff.mpr blames
  rw [tokenize, Text.splitAtFirst?_eq_none_iff.mpr noEquals]
  dsimp only
  rw [check_of_visible visible, fails]
  rfl

/-- A source with balanced parentheses is never refused for one. -/
theorem cause_of_tokenize (noEquals : '=' ∉ source)
    (visible : ¬ Text.IsWhite source)
    (balanced : IsBalanced (ofText 0 source))
    (fails : tokenize classify source = .error error) :
    error.cause.isUnmatched = false := by
  have passes : scan [] (ofText 0 source) = .ok () :=
    scan_eq_ok_iff.mpr balanced
  rw [tokenize, Text.splitAtFirst?_eq_none_iff.mpr noEquals] at fails
  dsimp only at fails
  rw [check_of_visible visible, passes, ok_bind] at fails
  rcases bind_eq_error_iff.mp fails with fails | ⟨_, -, fails⟩
  · rcases bind_eq_error_iff.mp fails with fails | ⟨_, -, fails⟩
    · exact cause_of_checkOperatorRuns fails
    · exact cause_of_checkEnd fails
  · exact cause_of_readTokens
      (fun piece member cause offset => cause_of_mem_locate member) fails

end Source

namespace Postfix.State

/-- The positions of the parentheses that wait to be closed, the innermost one
first. -/
def opened (state : State) : List Nat :=
  (state.pending.filter isOpening).map Token.position

variable {state : State} {token : Token}

theorem isOpening_of_isOperator {kind : Operator}
    (isOperator : token.kind = .operator kind) : isOpening token = false := by
  simp [isOpening, isOperator]

theorem opened_pushOperator {kind : Operator}
    (isOperator : token.kind = .operator kind) (state : State)
    (operator : Operator) :
    (state.pushOperator operator token).opened = state.opened := by
  have noneReady : (state.pending.takeWhile (precedes operator)).filter
      isOpening = [] := by
    refine List.filter_eq_nil_iff.mpr fun waiting member isOpened => ?_
    have isReady := List.mem_takeWhile_imp member
    simp only [isOpening, decide_eq_true_eq] at isOpened
    simp [precedes, isOpened] at isReady
  have parts := congrArg (List.filter isOpening)
    (List.takeWhile_append_dropWhile (p := precedes operator)
      (l := state.pending))
  rw [List.filter_append, noneReady, List.nil_append] at parts
  rw [opened, pushOperator, List.filter_cons_of_neg (by
    simp [isOpening_of_isOperator isOperator]), parts]
  rfl

theorem opened_joinOperands (state : State) (token : Token) :
    (state.joinOperands token).opened = state.opened := by
  unfold joinOperands
  split
  · exact opened_pushOperator rfl state .times
  · rfl

theorem opened_startWithZero (state : State) (operator : Operator)
    (token : Token) :
    (state.startWithZero operator token).opened = state.opened := by
  unfold startWithZero
  split <;> rfl

/-- Only a parenthesis changes which of them are open. -/
theorem exists_read_of_other (state : State)
    (isOther : ofToken? token = none) :
    ∃ next, state.read token = .ok next ∧ next.opened = state.opened := by
  have joined := opened_joinOperands state token
  unfold read
  dsimp only
  cases isKind : token.kind with
  | openParen | closeParen =>
      rw [ofToken?, isKind] at isOther
      contradiction
  | number | freeVariable | constant => exact ⟨_, rfl, joined⟩
  | function =>
      refine ⟨_, rfl, ?_⟩
      rw [opened, List.filter_cons_of_neg (by simp [isOpening, isKind])]
      exact joined
  | operator operator =>
      refine ⟨_, rfl, ?_⟩
      rw [opened_pushOperator isKind, opened_startWithZero]
      exact joined

theorem exists_read_of_opening (state : State)
    (isOpen : token.kind = .openParen) :
    ∃ next, state.read token = .ok next ∧
      next.opened = token.position :: state.opened := by
  unfold read
  dsimp only
  rw [isOpen]
  refine ⟨_, rfl, ?_⟩
  rw [opened, List.filter_cons_of_pos (by simp [isOpening, isOpen]),
    List.map_cons]
  exact congrArg _ (opened_joinOperands state token)

/-- A closing parenthesis closes the innermost one that is open. -/
theorem closeParenthesis_cases (state : State) (token : Token) :
    (state.opened = [] ∧ state.closeParenthesis token =
      .error ⟨.unmatchedClosing, token.position⟩) ∨
    ∃ innermost next, state.opened = innermost :: next.opened ∧
      state.closeParenthesis token = .ok next := by
  have noneInside : (state.pending.takeWhile fun waiting =>
      !isOpening waiting).filter isOpening = [] := by
    refine List.filter_eq_nil_iff.mpr fun waiting member => ?_
    simpa using List.mem_takeWhile_imp member
  have parts := congrArg (List.filter isOpening)
    (List.takeWhile_append_dropWhile (p := fun waiting => !isOpening waiting)
      (l := state.pending))
  have stops := List.head?_dropWhile_not
    (fun waiting => !isOpening waiting) state.pending
  rw [List.filter_append, noneInside, List.nil_append] at parts
  unfold closeParenthesis opened
  dsimp only
  rw [← parts]
  cases outside : state.pending.dropWhile fun waiting =>
      !isOpening waiting with
  | nil => exact .inl ⟨rfl, rfl⟩
  | cons opening rest =>
      have isOpened : isOpening opening = true := by
        rw [outside] at stops
        simpa using stops
      right
      rw [List.filter_cons_of_pos isOpened, List.map_cons]
      cases rest with
      | nil => exact ⟨opening.position, _, rfl, rfl⟩
      | cons caller outer =>
          dsimp only
          split
          next isFunction =>
              have notOpening : ¬ isOpening caller = true := by
                simp [isOpening, isFunction]
              rw [List.filter_cons_of_neg notOpening]
              exact ⟨opening.position, _, rfl, rfl⟩
          next => exact ⟨opening.position, _, rfl, rfl⟩

theorem finish_eq_scan (state : State) :
    state.finish.map (fun _ => ()) = scan state.opened [] := by
  unfold finish opened
  rw [← List.head?_filter]
  cases state.pending.filter isOpening <;> rfl

/-- Bringing tokens into postfix order is the pass over their parentheses. -/
theorem foldlM_read_eq_scan (state : State) (tokens : List Token) :
    (tokens.foldlM read state >>= finish).map (fun _ => ()) =
      scan state.opened (ofTokens tokens) := by
  induction tokens generalizing state with
  | nil => exact finish_eq_scan state
  | cons token rest ih =>
      rw [List.foldlM_cons, bind_assoc, ofTokens_cons]
      cases isKind : token.kind with
      | openParen =>
          obtain ⟨next, reads, isOpened⟩ :=
            exists_read_of_opening state isKind
          rw [reads, ok_bind, ih, isOpened, ofToken?, isKind]
          rfl
      | closeParen =>
          have reads : state.read token =
              { state with previous := some token.kind }.closeParenthesis
                token := by
            unfold read
            dsimp only
            rw [joinOperands_of_not_beginsOperand (by rw [isKind]; rfl),
              isKind]
          rw [reads, ofToken?, isKind]
          rcases closeParenthesis_cases
              { state with previous := some token.kind } token with
            ⟨noneOpen, fails⟩ | ⟨innermost, next, isOpened, closes⟩
          · rw [isKind] at fails
            rw [fails, show state.opened = [] from noneOpen]
            rfl
          · rw [isKind] at closes
            rw [closes, ok_bind, ih,
              show state.opened = innermost :: next.opened from isOpened]
            rfl
      | _ =>
          have isOther : ofToken? token = none := by rw [ofToken?, isKind]
          obtain ⟨next, reads, isOpened⟩ :=
            exists_read_of_other state isOther
          rw [reads, ok_bind, ih, isOpened, isOther]
          rfl

end Postfix.State

namespace Token

variable {tokens : List Token}

theorem toPostfix_eq_scan (tokens : List Token) :
    (toPostfix tokens).map (fun _ => ()) = scan [] (ofTokens tokens) :=
  Postfix.State.foldlM_read_eq_scan .initial tokens

/-- Tokens can be brought into postfix order exactly when their parentheses are
balanced. -/
theorem exists_toPostfix_iff :
    (∃ ordered, toPostfix tokens = .ok ordered) ↔
      IsBalanced (ofTokens tokens) := by
  rw [← scan_eq_ok_iff, ← toPostfix_eq_scan]
  cases toPostfix tokens with
  | ok ordered => exact ⟨fun _ => rfl, fun _ => ⟨ordered, rfl⟩⟩
  | error error =>
      constructor
      · rintro ⟨ordered, impossible⟩
        contradiction
      · intro impossible
        contradiction

theorem toPostfix_eq_error_iff {error : SyntaxError} :
    toPostfix tokens = .error error ↔ Blames (ofTokens tokens) error := by
  rw [← scan_eq_error_iff, ← toPostfix_eq_scan]
  cases toPostfix tokens with
  | ok ordered =>
      constructor
      all_goals
        intro impossible
        contradiction
  | error other =>
      rw [Except.map, Except.error.injEq, Except.error.injEq]

end Token

/-- A source that is neither a definition nor blank is refused for its
parentheses exactly when they are not balanced, whatever else is wrong with it,
and it is blamed on the first closing one without a partner or else on the last
opening one.  The same holds of tokens that are brought into postfix order, and
nothing else is wrong with those. -/
theorem Parenthesis.blames_of_passes :
    (∀ (environment : Environment) (source : Text),
      '=' ∉ source → ¬ Text.IsWhite source →
        (¬ IsBalanced (ofText 0 source) → ∃ error,
          Blames (ofText 0 source) error ∧
            environment.tokenize source = .error error) ∧
        (IsBalanced (ofText 0 source) → ∀ error,
          environment.tokenize source = .error error →
            error.cause.message ≠ SyntaxCause.unmatchedClosing.message ∧
              error.cause.message ≠ SyntaxCause.unclosed.message)) ∧
    ∀ tokens : List Token,
      ((∃ ordered, Token.toPostfix tokens = .ok ordered) ↔
        IsBalanced (ofTokens tokens)) ∧
      ∀ error, Token.toPostfix tokens = .error error ↔
        Blames (ofTokens tokens) error := by
  refine ⟨fun environment source noEquals visible =>
    ⟨fun unbalanced => ?_, fun balanced error fails => ?_⟩,
    fun tokens => ⟨Token.exists_toPostfix_iff, fun error =>
      Token.toPostfix_eq_error_iff⟩⟩
  · obtain ⟨error, blames⟩ := exists_blames unbalanced
    exact ⟨error, blames, Source.tokenize_of_blames noEquals visible blames⟩
  · exact SyntaxCause.message_ne_of_not_isUnmatched
      (Source.cause_of_tokenize noEquals visible balanced fails)

/-- The second closing parenthesis behind a letter of two bytes is blamed, and
neither the letter nor the last parenthesis. -/
theorem Parenthesis.blames_of_passes_letter :
    let source := "(é)) # (".toList
    '=' ∉ source ∧ ¬ Text.IsWhite source ∧
      ¬ IsBalanced (ofText 0 source) ∧
        (Environment.empty {}).tokenize source =
          .error ⟨.unmatchedClosing, 4⟩ := by
  intro source
  have noEquals : '=' ∉ source := by decide
  have visible : ¬ Text.IsWhite source := by decide
  have fails : scan [] (ofText 0 source) = .error ⟨.unmatchedClosing, 4⟩ := rfl
  have isBlamed : Blames (ofText 0 source) ⟨.unmatchedClosing, 4⟩ :=
    scan_eq_error_iff.mp fails
  obtain ⟨error, blames, refused⟩ :=
    (blames_of_passes.1 (.empty {}) source noEquals visible).1
      isBlamed.not_isBalanced
  obtain rfl := blames.unique isBlamed
  exact ⟨noEquals, visible, isBlamed.not_isBalanced, refused⟩

end GraphingCalculator
