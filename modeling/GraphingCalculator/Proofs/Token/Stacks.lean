import GraphingCalculator.Proofs.Sequence
import GraphingCalculator.Token.Postfix
import Mathlib.Data.List.Basic

/-!
# The tokens on the two stacks

Bringing tokens into postfix order moves them between two stacks.  Up to their
order, each step adds the token that is read, with a multiplication or a zero if
one is implied; only a closing parenthesis takes away the opening one that it
belongs to.
-/

namespace GraphingCalculator
namespace Postfix.State

/-- The tokens that a state holds. -/
def tokens (state : State) : List Token :=
  state.output ++ state.pending

/-- The multiplication that the next token implies, if there is one. -/
def impliedProducts (state : State) (token : Token) : List Token :=
  if state.previous.any Token.Kind.isAtom && token.kind.beginsOperand then
    [.impliedProduct token.position]
  else []

/-- The zero that the next token implies, if there is one. -/
def impliedZeros (state : State) (token : Token) : List Token :=
  if token.kind = .operator .minus ∧ state.tokens = [] then
    [.impliedZero token.position]
  else []

variable {state next : State} {token : Token}

theorem joinOperands_of_not_isAtom
    (notAtom : state.previous.any Token.Kind.isAtom = false) (token : Token) :
    state.joinOperands token = state := by
  simp [joinOperands, notAtom]

theorem joinOperands_of_not_beginsOperand
    (notOperand : token.kind.beginsOperand = false) :
    state.joinOperands token = state := by
  simp [joinOperands, notOperand]

/-- Writing waiting tokens moves them from one stack to the other. -/
private theorem perm_write (written output rest : List Token) :
    (written.reverse ++ output ++ rest).Perm (output ++ (written ++ rest)) := by
  rw [← List.append_assoc output]
  refine List.Perm.append_right rest ?_
  exact (written.reverse_perm.append_right output).trans List.perm_append_comm

theorem perm_pushOperator (state : State) (operator : Operator)
    (token : Token) :
    (state.pushOperator operator token).tokens.Perm
      (token :: state.tokens) := by
  have parts := List.takeWhile_append_dropWhile (p := precedes operator)
    (l := state.pending)
  have written := perm_write (state.pending.takeWhile (precedes operator))
    state.output (state.pending.dropWhile (precedes operator))
  rw [parts] at written
  exact List.perm_middle.trans (written.cons token)

theorem perm_joinOperands (state : State) (token : Token) :
    (state.joinOperands token).tokens.Perm
      (state.impliedProducts token ++ state.tokens) := by
  unfold joinOperands impliedProducts
  split
  · exact perm_pushOperator state .times _
  · exact .refl _

theorem tokens_startWithZero {operator : Operator}
    (isOperator : token.kind = .operator operator) :
    (state.startWithZero operator token).tokens =
      state.impliedZeros token ++ state.tokens := by
  unfold startWithZero impliedZeros
  rw [isOperator]
  by_cases isEmpty : operator = .minus ∧ state.tokens = []
  · obtain ⟨isMinus, noTokens⟩ := isEmpty
    obtain ⟨noOutput, noPending⟩ := List.append_eq_nil_iff.mp noTokens
    simp [isMinus, noOutput, noPending, tokens]
  · have notEmpty : ¬ ((operator = .minus ∧ state.output = []) ∧
        state.pending = []) := by
      rintro ⟨⟨isMinus, noOutput⟩, noPending⟩
      exact isEmpty ⟨isMinus, by simp [tokens, noOutput, noPending]⟩
    simp [isEmpty, notEmpty]

/-- A closing parenthesis takes an opening one away. -/
theorem perm_closeParenthesis
    (closes : state.closeParenthesis token = .ok next) :
    next.previous = state.previous ∧
      ∃ opening : Token, opening.kind = .openParen ∧
        state.tokens.Perm (opening :: next.tokens) := by
  have parts := List.takeWhile_append_dropWhile
    (p := fun waiting => !isOpening waiting) (l := state.pending)
  have isOpening_head (opening : Token) (rest : List Token)
      (drops : (state.pending.dropWhile fun waiting => !isOpening waiting) =
        opening :: rest) : opening.kind = .openParen := by
    have stops := List.head?_dropWhile_not
      (fun waiting => !isOpening waiting) state.pending
    rw [drops] at stops
    simpa [isOpening] using stops
  have written (rest : List Token) := perm_write
    (state.pending.takeWhile fun waiting => !isOpening waiting) state.output
    rest
  unfold closeParenthesis at closes
  dsimp only at closes
  rw [tokens, ← parts]
  generalize (state.pending.takeWhile fun waiting => !isOpening waiting) =
    inside at *
  split at closes
  · contradiction
  next opening isLast =>
      cases closes
      refine ⟨rfl, opening, isOpening_head opening [] isLast, ?_⟩
      rw [isLast]
      exact ((written [opening]).symm.trans List.perm_middle)
  next opening caller outer isOpened =>
      have isOpening := isOpening_head opening (caller :: outer) isOpened
      rw [isOpened]
      split at closes
      all_goals
        cases closes
        refine ⟨rfl, opening, isOpening, ?_⟩
      · exact (written (opening :: caller :: outer)).symm.trans
          (List.perm_middle.trans (List.perm_middle.cons opening))
      · exact (written (opening :: caller :: outer)).symm.trans
          List.perm_middle

/-- What one step does to the tokens of a state. -/
theorem perm_read (reads : state.read token = .ok next) :
    next.previous = some token.kind ∧
      ((token.kind ≠ .closeParen ∧
        next.tokens.Perm (token :: (state.impliedZeros token ++
          (state.impliedProducts token ++ state.tokens)))) ∨
      token.kind = .closeParen ∧ ∃ opening : Token,
        opening.kind = .openParen ∧
          state.tokens.Perm (opening :: next.tokens)) := by
  have joined := perm_joinOperands state token
  unfold read at reads
  dsimp only at reads
  split at reads
  case h_6 operator isOperator =>
      have notOperand : token.kind.beginsOperand = false := by
        rw [isOperator]
        rfl
      have noProducts : state.impliedProducts token = [] := by
        simp [impliedProducts, notOperand]
      rw [joinOperands_of_not_beginsOperand notOperand] at reads
      cases reads
      refine ⟨?_, .inl ⟨by simp [isOperator], ?_⟩⟩
      · unfold startWithZero pushOperator
        split <;> rw [isOperator]
      · refine (perm_pushOperator ..).trans (List.Perm.cons token ?_)
        rw [tokens_startWithZero isOperator, noProducts]
        exact .refl _
  case h_7 isClosing =>
      have notOperand : token.kind.beginsOperand = false := by
        rw [isClosing]
        rfl
      rw [joinOperands_of_not_beginsOperand notOperand] at reads
      obtain ⟨samePrevious, opening, isOpening, taken⟩ :=
        perm_closeParenthesis reads
      exact ⟨by rw [samePrevious, isClosing],
        .inr ⟨isClosing, opening, isOpening, taken⟩⟩
  all_goals
    rename_i isKind
    have noZeros : state.impliedZeros token = [] := by
      simp [impliedZeros, isKind]
    cases reads
    rw [noZeros, isKind]
    refine ⟨rfl, .inl ⟨by simp, ?_⟩⟩
  · exact joined.cons token
  · exact joined.cons token
  · exact joined.cons token
  · exact List.perm_middle.trans (joined.cons token)
  · exact List.perm_middle.trans (joined.cons token)

end Postfix.State
end GraphingCalculator
