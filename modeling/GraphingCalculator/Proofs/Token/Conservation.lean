import GraphingCalculator.Proofs.Token.Stacks
import Mathlib.Data.List.Induction
import Mathlib.Data.List.TakeWhile

/-!
# Postfix order conserves tokens

Whatever tokens are brought into postfix order, checked or not: if this
succeeds, the tokens that come out are those that went in without the
parentheses, and the multiplications that are implied between neighbours.  Only
one minus can be given a zero, the one that is met while both stacks are empty.
Atoms are written at once, and so they keep their order.
-/

namespace GraphingCalculator

namespace Token

/-- Check whether a token is one of the two parentheses. -/
def isParenthesis (token : Token) : Bool :=
  token.kind = .openParen || token.kind = .closeParen

/-- The multiplications that tokens imply: one for each atom that an operand
follows, at the position of the operand. -/
def impliedProducts (tokens : List Token) : List Token :=
  ((tokens.zip tokens.tail).filter fun (first, second) =>
    first.kind.isAtom && second.kind.beginsOperand).map
      fun (_, second) => .impliedProduct second.position

/-- A minus that is met while nothing is written and nothing waits. -/
def IsLeadingMinus (tokens : List Token) (minus : Token) : Prop :=
  minus.kind = .operator .minus ∧
    ∃ before after state, tokens = before ++ minus :: after ∧
      before.foldlM Postfix.State.read Postfix.State.initial = .ok state ∧
        state.output = [] ∧ state.pending = []

theorem isParenthesis_of_isOperator {token : Token} {operator : Operator}
    (isOperator : token.kind = .operator operator) :
    token.isParenthesis = false := by
  simp [isParenthesis, isOperator]

theorem impliedProducts_snoc (tokens : List Token) (token : Token) :
    impliedProducts (tokens ++ [token]) =
      impliedProducts tokens ++
        if (tokens.getLast?.map Token.kind).any Kind.isAtom &&
            token.kind.beginsOperand then
          [.impliedProduct token.position]
        else [] := by
  induction tokens with
  | nil => rfl
  | cons first rest ih =>
      cases rest with
      | nil =>
          unfold impliedProducts
          by_cases joins : (first.kind.isAtom && token.kind.beginsOperand) =
            true
          · simp_all
          · simp_all
      | cons second later =>
          unfold impliedProducts at ih ⊢
          rw [List.getLast?_cons_cons]
          simp only [List.cons_append, List.tail_cons, List.zip_cons_cons,
            List.filter_cons] at ih ⊢
          split
          · simp only [List.map_cons, List.cons_append, ih]
          · exact ih

end Token

namespace Postfix.State

open Token

variable {state next : State} {token : Token} {tokens : List Token}

/-- The atoms that are written, the earliest first. -/
def atoms (state : State) : List Token :=
  state.output.reverse.filter fun written => written.kind.isAtom

/-- No parenthesis is written, and of the tokens that wait none is an atom or a
closing parenthesis. -/
structure IsSorted (state : State) : Prop where
  output : ∀ written ∈ state.output, written.isParenthesis = false
  pending : ∀ waiting ∈ state.pending,
    waiting.kind.isAtom = false ∧ waiting.kind ≠ .closeParen

theorem isSorted_initial : initial.IsSorted :=
  ⟨by simp [initial], by simp [initial]⟩

/-- Writing some of the tokens that wait changes nothing about the atoms. -/
theorem IsSorted.write (sorted : state.IsSorted) {ready rest : List Token}
    (parts : ready ++ rest = state.pending)
    (notOpening : ∀ written ∈ ready, written.kind ≠ .openParen)
    (previous : Option Kind) :
    (State.mk (ready.reverse ++ state.output) rest previous).IsSorted ∧
      (State.mk (ready.reverse ++ state.output) rest previous).atoms =
        state.atoms := by
  have waits (waiting : Token) (member : waiting ∈ ready ++ rest) :=
    sorted.pending waiting (parts ▸ member)
  refine ⟨⟨fun written member => ?_, fun waiting member =>
    waits waiting (List.mem_append_right ready member)⟩, ?_⟩
  · rcases List.mem_append.mp member with isReady | wasWritten
    · rw [List.mem_reverse] at isReady
      have notClosing := (waits written (List.mem_append_left rest isReady)).2
      simp [isParenthesis, notOpening written isReady, notClosing]
    · exact sorted.output written wasWritten
  · have noAtoms : ready.filter (fun written => written.kind.isAtom) = [] := by
      refine List.filter_eq_nil_iff.mpr fun written member => ?_
      simp [(waits written (List.mem_append_left rest member)).1]
    rw [atoms, List.reverse_append, List.reverse_reverse, List.filter_append,
      noAtoms, List.append_nil]
    rfl

/-- A token that waits is no atom. -/
theorem IsSorted.wait (sorted : state.IsSorted)
    (notAtom : token.kind.isAtom = false) (notClosing : token.kind ≠ .closeParen)
    (previous : Option Kind) :
    (State.mk state.output (token :: state.pending) previous).IsSorted ∧
      (State.mk state.output (token :: state.pending) previous).atoms =
        state.atoms :=
  ⟨⟨sorted.output, List.forall_mem_cons.mpr
    ⟨⟨notAtom, notClosing⟩, sorted.pending⟩⟩, rfl⟩

theorem IsSorted.pushOperator (sorted : state.IsSorted) {kind : Operator}
    (isOperator : token.kind = .operator kind) (operator : Operator) :
    (state.pushOperator operator token).IsSorted ∧
      (state.pushOperator operator token).atoms = state.atoms := by
  obtain ⟨sortedWritten, sameAtoms⟩ := sorted.write
    (List.takeWhile_append_dropWhile (p := precedes operator))
    (fun written member isOpening => by
      have isReady := List.mem_takeWhile_imp member
      simp [precedes, isOpening] at isReady)
    state.previous
  obtain ⟨sortedWaiting, sameAtomsWaiting⟩ := sortedWritten.wait
    (by rw [isOperator]; rfl) (by rw [isOperator]; simp) state.previous
  exact ⟨sortedWaiting, sameAtomsWaiting.trans sameAtoms⟩

theorem IsSorted.joinOperands (sorted : state.IsSorted) (token : Token) :
    (state.joinOperands token).IsSorted ∧
      (state.joinOperands token).atoms = state.atoms := by
  unfold State.joinOperands
  split
  · exact sorted.pushOperator rfl .times
  · exact ⟨sorted, rfl⟩

theorem IsSorted.startWithZero (sorted : state.IsSorted) {operator : Operator}
    (isOperator : token.kind = .operator operator) :
    (state.startWithZero operator token).IsSorted ∧
      (state.startWithZero operator token).atoms =
        state.atoms ++ state.impliedZeros token := by
  unfold State.startWithZero impliedZeros State.tokens
  rw [isOperator]
  split
  next isLeading =>
      simp only [Bool.and_eq_true, decide_eq_true_eq, List.isEmpty_iff]
        at isLeading
      obtain ⟨⟨rfl, noOutput⟩, noPending⟩ := isLeading
      rw [if_pos ⟨rfl, by rw [noOutput, noPending]; rfl⟩]
      refine ⟨⟨?_, sorted.pending⟩, ?_⟩
      · simp [isParenthesis, impliedZero]
      · simp [atoms, noOutput, impliedZero, Kind.isAtom]
  next notLeading =>
      rw [if_neg, List.append_nil]
      · exact ⟨sorted, rfl⟩
      · rintro ⟨isMinus, noTokens⟩
        obtain ⟨noOutput, noPending⟩ := List.append_eq_nil_iff.mp noTokens
        cases isMinus
        simp [noOutput, noPending] at notLeading

theorem IsSorted.closeParenthesis (sorted : state.IsSorted)
    (closes : state.closeParenthesis token = .ok next) :
    next.IsSorted ∧ next.atoms = state.atoms := by
  have parts := List.takeWhile_append_dropWhile
    (p := fun waiting => !isOpening waiting) (l := state.pending)
  have notOpening (written : Token) (member : written ∈
      state.pending.takeWhile fun waiting => !isOpening waiting) :
      written.kind ≠ .openParen := by
    have isInside := List.mem_takeWhile_imp member
    simpa [isOpening] using isInside
  obtain ⟨sortedWritten, sameAtoms⟩ :=
    sorted.write parts notOpening state.previous
  unfold State.closeParenthesis at closes
  dsimp only at closes
  generalize (state.pending.takeWhile fun waiting => !isOpening waiting) =
    inside at *
  -- What is left of the tokens that wait is the opening parenthesis and those
  -- outside of it, the first of which may be the function that it belongs to.
  split at closes
  · contradiction
  next opening isLast =>
      cases closes
      exact ⟨⟨sortedWritten.output, by simp⟩, sameAtoms⟩
  next opening caller outer isOpened =>
      rw [isOpened] at sortedWritten sameAtoms
      obtain ⟨-, waits⟩ := List.forall_mem_cons.mp sortedWritten.pending
      have outside : (State.mk (inside.reverse ++ state.output)
          (caller :: outer) state.previous).IsSorted :=
        ⟨sortedWritten.output, waits⟩
      split at closes
      next isFunction =>
          cases closes
          have callerFirst : [caller] ++ outer = caller :: outer := rfl
          obtain ⟨sortedCalled, sameAtomsCalled⟩ :=
            outside.write callerFirst (by simp [isFunction]) state.previous
          exact ⟨sortedCalled, sameAtomsCalled.trans sameAtoms⟩
      next =>
          cases closes
          exact ⟨outside, sameAtoms⟩

/-- An atom is written behind the atoms before it, and no other token changes
them, except for the zero that a leading minus implies. -/
theorem IsSorted.read (sorted : state.IsSorted)
    (reads : state.read token = .ok next) :
    next.IsSorted ∧
      next.atoms = state.atoms ++
        (state.impliedZeros token ++ [token].filter (·.kind.isAtom)) := by
  obtain ⟨sortedJoined, sameAtoms⟩ := sorted.joinOperands token
  unfold State.read at reads
  dsimp only at reads
  split at reads
  case h_6 operator isOperator =>
      rw [joinOperands_of_not_beginsOperand (by rw [isOperator]; rfl)] at reads
      cases reads
      have sortedState : (State.mk state.output state.pending
          (some token.kind)).IsSorted := ⟨sorted.output, sorted.pending⟩
      obtain ⟨sortedStarted, atomsStarted⟩ :=
        sortedState.startWithZero isOperator
      obtain ⟨sortedPushed, atomsPushed⟩ :=
        sortedStarted.pushOperator isOperator operator
      have notAtom : [token].filter (·.kind.isAtom) = [] := by
        simp [isOperator, Kind.isAtom]
      rw [notAtom, List.append_nil]
      exact ⟨sortedPushed, atomsPushed.trans atomsStarted⟩
  case h_7 isClosing =>
      rw [joinOperands_of_not_beginsOperand (by rw [isClosing]; rfl)] at reads
      have sortedState : (State.mk state.output state.pending
          (some token.kind)).IsSorted := ⟨sorted.output, sorted.pending⟩
      obtain ⟨sortedNext, atomsNext⟩ := sortedState.closeParenthesis reads
      have nothing : state.impliedZeros token ++
          [token].filter (·.kind.isAtom) = [] := by
        simp [impliedZeros, isClosing, Kind.isAtom]
      rw [nothing, List.append_nil]
      exact ⟨sortedNext, atomsNext⟩
  all_goals
    rename_i isKind
    cases reads
    rw [← sameAtoms]
    have noZeros : state.impliedZeros token = [] := by
      simp [impliedZeros, isKind]
    rw [noZeros]
  case h_1 | h_2 | h_3 =>
    refine ⟨⟨?_, sortedJoined.pending⟩, ?_⟩
    · refine List.forall_mem_cons.mpr ⟨?_, sortedJoined.output⟩
      simp [isParenthesis, isKind]
    · simp [atoms, isKind, Kind.isAtom]
  case h_4 | h_5 =>
    have notAtom : token.kind.isAtom = false := by rw [isKind]; rfl
    have notClosing : token.kind ≠ .closeParen := by rw [isKind]; simp
    obtain ⟨sortedWaiting, atomsWaiting⟩ :=
      sortedJoined.wait notAtom notClosing (some token.kind)
    rw [List.filter_cons_of_neg (by simp [notAtom]), List.filter_nil,
      List.append_nil, List.append_nil]
    exact ⟨sortedWaiting, atomsWaiting⟩

/-- What a state holds after tokens were read, up to parentheses, and which
atoms are written. -/
structure Conserves (tokens zeros : List Token) (state : State) : Prop where
  previous : state.previous = tokens.getLast?.map Token.kind
  sorted : state.IsSorted
  held : (state.tokens.filter (!·.isParenthesis)).Perm
    (zeros ++ (Token.impliedProducts tokens ++
      tokens.filter (!·.isParenthesis)))
  atoms : state.atoms = zeros ++ tokens.filter (·.kind.isAtom)
  leads : zeros ≠ [] → ∃ minus, IsLeadingMinus tokens minus
  zero : ∀ minus, IsLeadingMinus tokens minus →
    zeros = [.impliedZero minus.position]

theorem conserves_initial : Conserves [] [] initial where
  previous := rfl
  sorted := isSorted_initial
  held := .refl _
  atoms := rfl
  leads nonempty := absurd rfl nonempty
  zero minus leading := by
    obtain ⟨-, before, after, state, parts, -⟩ := leading
    simp at parts

variable {zeros : List Token}

/-- Once there is a zero, a state is not empty any more. -/
theorem Conserves.zeros_eq_nil (conserves : Conserves tokens zeros state)
    (noTokens : state.tokens = []) : zeros = [] := by
  have held := conserves.held
  rw [noTokens, List.filter_nil] at held
  exact (List.append_eq_nil_iff.mp held.nil_eq.symm).1

theorem Conserves.held_read (conserves : Conserves tokens zeros state)
    (reads : state.read token = .ok next) :
    (next.tokens.filter (!·.isParenthesis)).Perm
      ((zeros ++ state.impliedZeros token) ++
        (Token.impliedProducts (tokens ++ [token]) ++
          (tokens ++ [token]).filter (!·.isParenthesis))) := by
  have products : Token.impliedProducts (tokens ++ [token]) =
      Token.impliedProducts tokens ++ state.impliedProducts token := by
    rw [impliedProducts_snoc, impliedProducts, conserves.previous]
  have held := conserves.held
  rw [products, List.filter_append]
  rcases (perm_read reads).2 with ⟨-, added⟩ | ⟨isClosing, opening, isOpening,
      taken⟩
  · have visibleZeros : (state.impliedZeros token).filter (!·.isParenthesis) =
        state.impliedZeros token := by
      unfold impliedZeros
      split <;> rfl
    have visibleProducts : (state.impliedProducts token).filter
        (!·.isParenthesis) = state.impliedProducts token := by
      unfold impliedProducts
      split <;> rfl
    have addedVisible := added.filter (!·.isParenthesis)
    rw [← List.singleton_append, List.filter_append, List.filter_append,
      List.filter_append, visibleZeros, visibleProducts] at addedVisible
    rw [List.perm_iff_count] at *
    intro other
    have heldOther := held other
    have addedOther := addedVisible other
    simp only [List.count_append] at *
    omega
  · have noZeros : state.impliedZeros token = [] := by
      simp [impliedZeros, isClosing]
    have noProducts : state.impliedProducts token = [] := by
      simp [impliedProducts, isClosing, Kind.beginsOperand]
    have notVisible : [token].filter (!·.isParenthesis) = [] := by
      simp [isParenthesis, isClosing]
    have takenVisible := taken.filter (!·.isParenthesis)
    rw [List.filter_cons_of_neg (by simp [isParenthesis, isOpening])]
      at takenVisible
    rw [noZeros, noProducts, notVisible, List.append_nil, List.append_nil,
      List.append_nil]
    exact takenVisible.symm.trans held

/-- Reading one more token conserves all of them. -/
theorem Conserves.read (conserves : Conserves tokens zeros state)
    (readsBefore : tokens.foldlM State.read initial = .ok state)
    (reads : state.read token = .ok next) :
    Conserves (tokens ++ [token]) (zeros ++ state.impliedZeros token) next := by
  obtain ⟨sorted, sameAtoms⟩ := conserves.sorted.read reads
  refine ⟨?_, sorted, conserves.held_read reads, ?_, fun nonempty => ?_,
    fun minus leading => ?_⟩
  · rw [(perm_read reads).1, List.getLast?_concat]
    rfl
  · rw [sameAtoms, conserves.atoms, List.filter_append]
    by_cases isZero : state.impliedZeros token = []
    · simp [isZero]
    · -- Before a zero nothing was read but parentheses.
      have noTokens : state.tokens = [] := by
        by_contra notEmpty
        exact isZero (if_neg fun isLeading => notEmpty isLeading.2)
      have noAtoms : state.atoms = [] := by
        rw [State.atoms, (List.append_eq_nil_iff.mp noTokens).1]
        rfl
      have nothing := noAtoms.symm.trans conserves.atoms
      rw [(List.append_eq_nil_iff.mp nothing.symm).2]
      simp
  · by_cases hasZero : zeros = []
    · rw [hasZero, List.nil_append, impliedZeros] at nonempty
      split at nonempty
      next isLeading =>
          obtain ⟨noOutput, noPending⟩ :=
            List.append_eq_nil_iff.mp isLeading.2
          exact ⟨token, isLeading.1, tokens, [], state, rfl, readsBefore,
            noOutput, noPending⟩
      next => contradiction
    · obtain ⟨minus, isMinus, before, after, earlier, rfl, leads⟩ :=
        conserves.leads hasZero
      exact ⟨minus, isMinus, before, after ++ [token], earlier, by simp, leads⟩
  · obtain ⟨isMinus, before, after, earlier, parts, readsEarlier, noOutput,
      noPending⟩ := leading
    rcases List.eq_nil_or_concat' after with rfl | ⟨others, last, rfl⟩
    · obtain ⟨rfl, rfl⟩ := List.append_singleton_inj.mp parts
      obtain rfl : earlier = state :=
        Except.ok.inj (readsEarlier.symm.trans readsBefore)
      have noTokens : earlier.tokens = [] := by
        rw [State.tokens, noOutput, noPending]
        rfl
      rw [conserves.zeros_eq_nil noTokens, impliedZeros,
        if_pos ⟨isMinus, noTokens⟩]
      rfl
    · rw [← List.cons_append, ← List.append_assoc] at parts
      obtain ⟨isBefore, -⟩ := List.append_singleton_inj.mp parts
      have isZero := conserves.zero minus ⟨isMinus, before, others, earlier,
        isBefore, readsEarlier, noOutput, noPending⟩
      have notEmpty : state.tokens ≠ [] := by
        intro noTokens
        rw [conserves.zeros_eq_nil noTokens] at isZero
        contradiction
      rw [isZero, impliedZeros, if_neg fun isLeading => notEmpty isLeading.2]
      rfl

theorem exists_conserves
    (reads : tokens.foldlM State.read initial = .ok state) :
    ∃ zeros, Conserves tokens zeros state := by
  induction tokens using List.reverseRecOn generalizing state with
  | nil =>
      cases reads
      exact ⟨[], conserves_initial⟩
  | append_singleton tokens token ih =>
      rw [List.foldlM_append] at reads
      obtain ⟨middle, readsBefore, readsToken⟩ := bind_eq_ok_iff.mp reads
      obtain ⟨last, readsToken, ends⟩ := bind_eq_ok_iff.mp readsToken
      cases ends
      obtain ⟨zeros, conserves⟩ := ih readsBefore
      exact ⟨_, conserves.read readsBefore readsToken⟩

theorem finish_eq_ok_iff {output : List Token} :
    state.finish = .ok output ↔
      (∀ waiting ∈ state.pending, waiting.kind ≠ .openParen) ∧
        output = state.output.reverse ++ state.pending := by
  unfold finish
  split
  next opening found =>
      have opens : opening.kind = .openParen := by
        simpa [isOpening] using List.find?_some found
      simp only [reduceCtorEq, false_iff, not_and]
      intro noOpening
      exact absurd opens (noOpening opening (List.mem_of_find?_eq_some found))
  next noOpening =>
      have notOpening : ∀ waiting ∈ state.pending,
          waiting.kind ≠ .openParen := by
        simpa [isOpening] using noOpening
      rw [Except.ok.injEq, eq_comm]
      exact (and_iff_right notOpening).symm

end Postfix.State

/-- Bringing tokens into postfix order loses and duplicates nothing.  What comes
out are the tokens that went in, without the parentheses, and a multiplication
for each atom that an operand follows, and one zero if and only if a minus was
met while nothing was written and nothing waited.  The zero comes first, and the
atoms keep their order. -/
theorem Token.perm_toPostfix {tokens output : List Token}
    (converts : toPostfix tokens = .ok output) :
    ∃ zeros,
      output.Perm (zeros ++ (impliedProducts tokens ++
        tokens.filter (!·.isParenthesis))) ∧
      output.filter (·.kind.isAtom) =
        zeros ++ tokens.filter (·.kind.isAtom) ∧
      (zeros ≠ [] → ∃ minus, IsLeadingMinus tokens minus) ∧
      ∀ minus, IsLeadingMinus tokens minus →
        zeros = [.impliedZero minus.position] := by
  obtain ⟨state, reads, finishes⟩ := bind_eq_ok_iff.mp converts
  obtain ⟨zeros, conserves⟩ := Postfix.State.exists_conserves reads
  obtain ⟨noOpening, rfl⟩ := Postfix.State.finish_eq_ok_iff.mp finishes
  refine ⟨zeros, ?_, ?_, conserves.leads, conserves.zero⟩
  · have visible : state.tokens.filter (!·.isParenthesis) = state.tokens := by
      refine List.filter_eq_self.mpr fun held member => ?_
      rcases List.mem_append.mp member with isWritten | waits
      · simp [conserves.sorted.output held isWritten]
      · have notClosing := (conserves.sorted.pending held waits).2
        simp [isParenthesis, noOpening held waits, notClosing]
    have held := conserves.held
    rw [visible] at held
    exact (state.output.reverse_perm.append_right state.pending).trans held
  · have noAtoms : state.pending.filter (·.kind.isAtom) = [] := by
      refine List.filter_eq_nil_iff.mpr fun waiting member => ?_
      simp [(conserves.sorted.pending waiting member).1]
    rw [List.filter_append, noAtoms, List.append_nil]
    exact conserves.atoms

/-- The tokens of `() - 2 x sin`, which no check on tokens accepts. -/
theorem Token.perm_toPostfix_unchecked :
    let tokens : List Token :=
      [⟨.openParen, ['('], 0⟩, ⟨.closeParen, [')'], 1⟩,
        ⟨.operator .minus, ['-'], 3⟩, ⟨.number, ['2'], 5⟩,
        ⟨.freeVariable, ['x'], 7⟩, ⟨.function, ['s', 'i', 'n'], 9⟩]
    let output : List Token :=
      [.impliedZero 3, ⟨.number, ['2'], 5⟩, ⟨.freeVariable, ['x'], 7⟩,
        .impliedProduct 7, ⟨.function, ['s', 'i', 'n'], 9⟩, .impliedProduct 9,
        ⟨.operator .minus, ['-'], 3⟩]
    toPostfix tokens = .ok output ∧ ∃ zeros,
      output.Perm (zeros ++ (impliedProducts tokens ++
        tokens.filter (!·.isParenthesis))) ∧
      output.filter (·.kind.isAtom) =
        zeros ++ tokens.filter (·.kind.isAtom) ∧
      (zeros ≠ [] → ∃ minus, IsLeadingMinus tokens minus) ∧
      ∀ minus, IsLeadingMinus tokens minus →
        zeros = [.impliedZero minus.position] := by
  intro tokens output
  have converts : toPostfix tokens = .ok output := rfl
  exact ⟨converts, perm_toPostfix converts⟩

end GraphingCalculator
