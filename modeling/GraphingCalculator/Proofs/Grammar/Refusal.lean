import GraphingCalculator.Proofs.Grammar.Compilation

/-!
# What is refused after the checks

Tokens that passed both kinds of checks are always brought into postfix order.
The tokens in postfix order are never too many for one expression: read from
behind, they weigh less than an operand until the last one of them is read.  So
all that can happen besides the limit of nesting is that an operand is missing,
and this happens in two places only: after a function that closes the tokens,
and between an operator and a closing parenthesis.  All other tokens that pass
the checks stand for exactly one tree.
-/

namespace GraphingCalculator

theorem totalWeight_nonpos {tokens : List Token}
    (light : ∀ token ∈ tokens, token.weight ≤ 0) : totalWeight tokens ≤ 0 := by
  induction tokens with
  | nil => simp
  | cons token rest ih =>
      have first := light token List.mem_cons_self
      have others := ih fun other member =>
        light other (List.mem_cons_of_mem _ member)
      rw [totalWeight_cons]
      omega

theorem totalWeight_reverse (tokens : List Token) :
    totalWeight tokens.reverse = totalWeight tokens :=
  totalWeight_perm tokens.reverse_perm

namespace Postfix

/-- Two stacks that hold tokens for no more than the number of operands that are
complete.  The tokens that were written last weigh less, however many of them
are taken, as long as they are not all. -/
structure IsLight (complete : Int) (output pending : List Token) : Prop where
  noOpenings : openings output = 0
  waiting : ∀ token ∈ pending, token.weight ≤ 0
  whole : totalWeight pending + totalWeight output ≤ complete
  parts : ∀ front, front <+: output → front ≠ output →
    totalWeight pending + totalWeight front < complete

namespace IsLight

variable {complete : Int} {output pending : List Token} {token : Token}

theorem nil : IsLight 0 [] [] where
  noOpenings := rfl
  waiting := by simp
  whole := by simp
  parts front isFront notAll := absurd (List.prefix_nil.mp isFront) notAll

theorem mono {more : Int} (light : IsLight complete output pending)
    (atMost : complete ≤ more) : IsLight more output pending where
  noOpenings := light.noOpenings
  waiting := light.waiting
  whole := Int.le_trans light.whole atMost
  parts front isFront notAll :=
    Int.lt_of_lt_of_le (light.parts front isFront notAll) atMost

/-- An operand is written where one is expected. -/
theorem operand (light : IsLight 0 output pending)
    (isAtom : token.kind.isAtom = true) :
    IsLight 1 (token :: output) pending := by
  have weighs : token.weight = 1 := by
    rw [Token.weight]
    cases isKind : token.kind <;> simp_all [Token.Kind.isAtom]
  have notOpening : token.kind ≠ .openParen := by
    intro isOpening
    rw [isOpening] at isAtom
    contradiction
  refine ⟨?_, light.waiting, ?_, fun front isFront notAll => ?_⟩
  · simp [notOpening, light.noOpenings]
  · have whole := light.whole
    rw [totalWeight_cons]
    omega
  · rcases List.prefix_cons_iff.mp isFront with rfl | ⟨inner, rfl, isInner⟩
    · have nonpos := totalWeight_nonpos light.waiting
      rw [totalWeight_nil]
      omega
    · have bound := light.parts inner isInner fun same => notAll (by rw [same])
      rw [totalWeight_cons]
      omega

/-- A function or a parenthesis starts to wait. -/
theorem waits (light : IsLight complete output pending)
    (weightless : token.weight = 0) :
    IsLight complete output (token :: pending) where
  noOpenings := light.noOpenings
  waiting other member := by
    rcases List.mem_cons.mp member with rfl | later
    · exact Int.le_of_eq weightless
    · exact light.waiting other later
  whole := by simpa [weightless] using light.whole
  parts := by simpa [weightless] using light.parts

/-- An operator starts to wait after a complete operand. -/
theorem operator {operator : Operator} (light : IsLight 1 output pending)
    (isOperator : token.kind = .operator operator) :
    IsLight 0 output (token :: pending) := by
  have weighs : token.weight = -1 := by rw [Token.weight, isOperator]
  refine ⟨light.noOpenings, fun other member => ?_, ?_,
    fun front isFront notAll => ?_⟩
  · rcases List.mem_cons.mp member with rfl | later
    · omega
    · exact light.waiting other later
  · have whole := light.whole
    rw [totalWeight_cons]
    omega
  · have bound := light.parts front isFront notAll
    rw [totalWeight_cons]
    omega

/-- Waiting tokens are written after a complete operand. -/
theorem write {ready rest : List Token}
    (light : IsLight 1 output (ready ++ rest))
    (noOpenings : openings ready = 0) :
    IsLight 1 (ready.reverse ++ output) rest := by
  have readyWaiting : ∀ token ∈ ready.reverse, token.weight ≤ 0 :=
    fun token member => light.waiting token
      (List.mem_append_left _ (List.mem_reverse.mp member))
  have restWaiting : ∀ token ∈ rest, token.weight ≤ 0 :=
    fun token member => light.waiting token (List.mem_append_right _ member)
  refine ⟨?_, restWaiting, ?_, fun front isFront notAll => ?_⟩
  · rw [openings_append, openings_perm ready.reverse_perm, noOpenings,
      light.noOpenings]
  · have whole := light.whole
    rw [totalWeight_append] at whole
    rw [totalWeight_append, totalWeight_reverse]
    omega
  · have below := totalWeight_nonpos restWaiting
    rcases List.prefix_or_prefix_of_prefix isFront
      (List.prefix_append ready.reverse output) with inReady | ⟨inner, rfl⟩
    · have above := totalWeight_nonpos fun token member =>
        readyWaiting token (inReady.subset member)
      omega
    · have isInner := (List.prefix_append_right_inj ready.reverse).mp isFront
      have bound := light.parts inner isInner fun same =>
        notAll (by rw [same])
      rw [totalWeight_append] at bound
      rw [totalWeight_append, totalWeight_reverse]
      omega

/-- A parenthesis that is closed stops to wait. -/
theorem drop (light : IsLight complete output (token :: pending))
    (weightless : token.weight = 0) : IsLight complete output pending where
  noOpenings := light.noOpenings
  waiting other member := light.waiting other (List.mem_cons_of_mem _ member)
  whole := by simpa [weightless] using light.whole
  parts := by simpa [weightless] using light.parts

end IsLight

namespace State

variable {state next : State} {token before : Token}

/-- The number of operands that are complete, within the innermost operation
that is not. -/
def complete (state : State) : Int :=
  (state.previous.map Token.Kind.complete).getD 0

/-- A state whose stacks are light. -/
def IsLight (state : State) : Prop :=
  Postfix.IsLight state.complete state.output state.pending

theorem isLight_initial : initial.IsLight :=
  Postfix.IsLight.nil

theorem complete_bounds (state : State) :
    0 ≤ state.complete ∧ state.complete ≤ 1 := by
  unfold complete Token.Kind.complete
  cases state.previous with
  | none => simp
  | some kind =>
      dsimp only [Option.map_some, Option.getD_some]
      split <;> simp

theorem isLight_pushOperator {operator kind : Operator}
    (light : Postfix.IsLight 1 state.output state.pending)
    (isOperator : token.kind = .operator kind) :
    Postfix.IsLight 0 (state.pushOperator operator token).output
      (state.pushOperator operator token).pending := by
  rw [← List.takeWhile_append_dropWhile (p := precedes operator)
    (l := state.pending)] at light
  refine (light.write ?_).operator isOperator
  refine openings_eq_zero_iff.mpr fun other member isOpening => ?_
  have ready := List.mem_takeWhile_imp member
  rw [precedes, isOpening] at ready
  contradiction

/-- After an atom the operand that follows is multiplied with it, and elsewhere
an operand is expected. -/
theorem isLight_joinOperands (light : state.IsLight)
    (fits : ∀ kind ∈ state.previous,
      Token.pairFault? kind token.kind = none)
    (begins : token.kind.beginsOperand = true) :
    Postfix.IsLight 0 (state.joinOperands token).output
      (state.joinOperands token).pending := by
  unfold joinOperands
  cases isAtom : state.previous.any Token.Kind.isAtom with
  | true =>
      simp only [begins, Bool.and_self, if_true]
      exact isLight_pushOperator (light.mono state.complete_bounds.2) rfl
  | false =>
      simp only [Bool.false_and, Bool.false_eq_true, if_false]
      refine light.mono ?_
      unfold complete
      cases isPrevious : state.previous with
      | none => simp
      | some kind =>
          have fitsKind := fits kind isPrevious
          rw [isPrevious] at isAtom
          cases kind <;>
            simp_all [Token.pairFault?, Token.Kind.isAtom,
              Token.Kind.complete, Token.Kind.endsOperand]

theorem isLight_startWithZero (state : State) (token : Token)
    {operator : Operator} {complete : Int}
    (light : Postfix.IsLight complete state.output state.pending)
    (continues : complete = 1 ∨
      operator = .minus ∧ state.output = [] ∧ state.pending = []) :
    Postfix.IsLight 1 (state.startWithZero operator token).output
      (state.startWithZero operator token).pending := by
  unfold startWithZero
  split
  next isEmpty =>
      simp only [Bool.and_eq_true, List.isEmpty_iff] at isEmpty
      rw [isEmpty.2]
      exact Postfix.IsLight.nil.operand rfl
  next notEmpty =>
      rcases continues with rfl | ⟨rfl, noOutput, noPending⟩
      · exact light
      · simp [noOutput, noPending] at notEmpty

/-- A parenthesis can be closed if one is open. -/
theorem exists_closeParenthesis (state : State) (token : Token)
    (light : Postfix.IsLight 1 state.output state.pending)
    (opened : openings state.pending ≠ 0) :
    ∃ next, state.closeParenthesis token = .ok next ∧
      next.previous = state.previous ∧
        Postfix.IsLight 1 next.output next.pending := by
  have parts := List.takeWhile_append_dropWhile
    (p := fun waiting => !isOpening waiting) (l := state.pending)
  have noOpenings :
      openings (state.pending.takeWhile fun waiting => !isOpening waiting) =
        0 := by
    refine openings_eq_zero_iff.mpr fun other member => ?_
    have notOpening := List.mem_takeWhile_imp member
    simpa [isOpening] using notOpening
  have stops := List.head?_dropWhile_not
    (fun waiting => !isOpening waiting) state.pending
  rw [← parts] at light
  have written := light.write noOpenings
  unfold closeParenthesis
  dsimp only
  cases opens : state.pending.dropWhile fun waiting => !isOpening waiting with
  | nil =>
      rw [opens, List.append_nil] at parts
      rw [parts] at noOpenings
      exact absurd noOpenings opened
  | cons opening outer =>
      rw [opens] at stops written
      have weightless : opening.weight = 0 := by
        have isKind : opening.kind = .openParen := by
          simpa [isOpening] using stops
        rw [Token.weight, isKind]
      have closed := written.drop weightless
      cases outer with
      | nil => exact ⟨_, rfl, rfl, closed⟩
      | cons caller outer =>
          dsimp only
          split
          next isFunction =>
              have called : Postfix.IsLight 1 ([caller].reverse ++ _) outer :=
                IsLight.write closed (by simp [isFunction])
              exact ⟨_, rfl, rfl, called⟩
          next => exact ⟨_, rfl, rfl, closed⟩

/-- A token that fits can be read, unless it closes a parenthesis that is not
open. -/
theorem exists_read (token : Token) (light : state.IsLight)
    (fits : ∀ kind ∈ state.previous, Token.pairFault? kind token.kind = none)
    (starts : state.previous = none → state.output = [] ∧ state.pending = [] ∧
      (token.kind.isOperator = true → token.kind = .operator .minus))
    (opened : token.kind = .closeParen → openings state.pending ≠ 0) :
    ∃ next, state.read token = .ok next ∧ next.IsLight := by
  unfold read
  dsimp only
  cases isKind : token.kind with
  | number | freeVariable | constant =>
      have joined := isLight_joinOperands light fits (by rw [isKind]; rfl)
      exact ⟨_, rfl, joined.operand (by rw [isKind]; rfl)⟩
  | function | openParen =>
      have joined := isLight_joinOperands light fits (by rw [isKind]; rfl)
      exact ⟨_, rfl, joined.waits (by rw [Token.weight, isKind])⟩
  | operator operator =>
      rw [joinOperands_of_not_beginsOperand (by rw [isKind]; rfl)]
      have continues : state.complete = 1 ∨
          operator = .minus ∧ state.output = [] ∧ state.pending = [] := by
        cases isPrevious : state.previous with
        | none =>
            obtain ⟨noOutput, noPending, isMinus⟩ := starts isPrevious
            rw [isKind] at isMinus
            exact .inr ⟨by simpa using isMinus rfl, noOutput, noPending⟩
        | some kind =>
            left
            have fitsKind := fits kind isPrevious
            rw [isKind] at fitsKind
            rw [complete, isPrevious]
            cases kind <;>
              simp_all [Token.pairFault?, Token.Kind.complete,
                Token.Kind.endsOperand, Token.Kind.isAtom]
      have started := isLight_startWithZero
        { state with previous := some (.operator operator) } token light
        continues
      exact ⟨_, rfl,
        (isLight_pushOperator started isKind).mono (complete_bounds _).1⟩
  | closeParen =>
      rw [joinOperands_of_not_beginsOperand (by rw [isKind]; rfl)]
      obtain ⟨next, closes, isPrevious, closed⟩ := exists_closeParenthesis
        { state with previous := some .closeParen } token
        (light.mono state.complete_bounds.2) (opened isKind)
      refine ⟨next, closes, closed.mono ?_⟩
      rw [complete, isPrevious]
      simp [Token.Kind.complete, Token.Kind.endsOperand]

/-- The parentheses that wait are those that are open. -/
theorem openings_pending_read (light : state.IsLight) (after : next.IsLight)
    (reads : state.read token = .ok next) :
    openings next.pending + closings [token] =
      openings state.pending + openings [token] := by
  have readsOne : [token].foldlM read state = .ok next := by
    rw [List.foldlM_cons, reads]
    rfl
  have counted := openings_foldlM readsOne
  have before := light.noOpenings
  have now := after.noOpenings
  simp only [tokens, openings, List.countP_append] at *
  omega

/-- Tokens that fit can be read, unless they close a parenthesis that is not
open. -/
theorem exists_foldlM {rest : List Token} (light : state.IsLight)
    (isBefore : state.previous = some before.kind)
    (fits : (before :: rest).IsChain Token.Fits)
    (opened : ∀ front, front <+: rest →
      closings front ≤ openings state.pending + openings front) :
    ∃ last, rest.foldlM read state = .ok last ∧ last.IsLight := by
  induction rest generalizing state before with
  | nil => exact ⟨state, rfl, light⟩
  | cons token rest ih =>
      obtain ⟨fitsToken, fitsRest⟩ := List.isChain_cons_cons.mp fits
      have fitsPrevious : ∀ kind ∈ state.previous,
          Token.pairFault? kind token.kind = none := by
        intro kind isKind
        rw [isBefore] at isKind
        cases isKind
        exact fitsToken
      have notFirst : state.previous ≠ none := by simp [isBefore]
      have isOpened : token.kind = .closeParen →
          openings state.pending ≠ 0 := by
        intro isClosing
        have bound := opened [token] ⟨rest, rfl⟩
        simp [isClosing] at bound
        omega
      obtain ⟨next, reads, after⟩ := exists_read token light fitsPrevious
        (fun isFirst => absurd isFirst notFirst) isOpened
      have counted := openings_pending_read light after reads
      have openedAfter : ∀ front, front <+: rest →
          closings front ≤ openings next.pending + openings front := by
        intro front isFront
        have bound := opened (token :: front)
          ((List.prefix_cons_inj token).mpr isFront)
        simp only [openings_cons, closings_cons, openings_nil, closings_nil]
          at bound counted
        omega
      obtain ⟨last, readsRest, isLight⟩ :=
        ih after (perm_read reads).1 fitsRest openedAfter
      exact ⟨last, by rw [List.foldlM_cons, reads]; exact readsRest, isLight⟩

/-- Tokens on the two stacks are spelled, and none of them closes a
parenthesis. -/
theorem isSpelled_foldlM {tokens : List Token} {last : State}
    (reads : tokens.foldlM read state = .ok last)
    (spelled : ∀ token ∈ tokens, token.IsSpelled)
    (isSpelled : ∀ token ∈ state.tokens,
      token.IsSpelled ∧ token.kind ≠ .closeParen) :
    ∀ token ∈ last.tokens, token.IsSpelled ∧ token.kind ≠ .closeParen := by
  induction tokens generalizing state with
  | nil =>
      cases reads
      exact isSpelled
  | cons token rest ih =>
      rw [List.foldlM_cons, bind_eq_ok_iff] at reads
      obtain ⟨next, readsToken, readsRest⟩ := reads
      refine ih readsRest (fun other member =>
        spelled other (List.mem_cons_of_mem _ member)) fun other member => ?_
      obtain ⟨-, ⟨notClosing, added⟩ |
          ⟨isClosing, opening, isOpening, taken⟩⟩ :=
        perm_read readsToken
      · have isOneOf := added.mem_iff.mp member
        simp only [List.mem_cons, List.mem_append] at isOneOf
        rcases isOneOf with rfl | isZero | isProduct | inState
        · exact ⟨spelled other List.mem_cons_self, notClosing⟩
        · unfold impliedZeros at isZero
          split at isZero <;> simp only [List.mem_singleton, List.not_mem_nil]
            at isZero
          have isNumeral : IsNumeral ['0'] :=
            .whole (by simp) fun digit member => by
              rw [List.mem_singleton.mp member]
              rfl
          rw [isZero]
          exact ⟨.numeral _ isNumeral, by simp [Token.impliedZero]⟩
        · unfold impliedProducts at isProduct
          split at isProduct <;>
            simp only [List.mem_singleton, List.not_mem_nil] at isProduct
          rw [isProduct]
          exact ⟨.operator .times _, by simp [Token.impliedProduct]⟩
        · exact isSpelled other inState
      · exact isSpelled other
          (taken.mem_iff.mpr (List.mem_cons_of_mem _ member))

end State
end Postfix

namespace Token

/-- A token that can stand in postfix order. -/
structure IsOrdered (token : Token) : Prop where
  spelled : token.IsSpelled
  notOpening : token.kind ≠ .openParen
  notClosing : token.kind ≠ .closeParen

/-- Tokens that passed the checks are brought into postfix order, and what is
written last weighs less than an operand. -/
theorem exists_toPostfix {first : Token} {rest : List Token}
    (spelled : ∀ token ∈ first :: rest, token.IsSpelled)
    (fits : (first :: rest).IsChain Fits)
    (starts : first.kind.isOperator = true → first.kind = .operator .minus)
    (opened : ∀ front, front <+: first :: rest →
      closings front ≤ openings front)
    (balanced : closings (first :: rest) = openings (first :: rest)) :
    ∃ ordered, toPostfix (first :: rest) = .ok ordered ∧
      (∀ token ∈ ordered, token.IsOrdered) ∧
        ∀ front, front <+: ordered.reverse → front ≠ ordered.reverse →
          totalWeight front ≤ 0 := by
  have noneOpen : openings Postfix.State.initial.pending = 0 := rfl
  have notClosing : first.kind ≠ .closeParen := by
    intro isClosing
    have bound := opened [first] ⟨rest, rfl⟩
    simp [isClosing] at bound
  obtain ⟨next, readsFirst, after⟩ :=
    Postfix.State.exists_read first Postfix.State.isLight_initial
      (fun kind impossible => by cases impossible)
      (fun _ => ⟨rfl, rfl, starts⟩)
      (fun isClosing => absurd isClosing notClosing)
  have counted := Postfix.State.openings_pending_read
    Postfix.State.isLight_initial after readsFirst
  have openedRest : ∀ front, front <+: rest →
      closings front ≤ openings next.pending + openings front := by
    intro front isFront
    have bound := opened (first :: front)
      ((List.prefix_cons_inj first).mpr isFront)
    simp only [openings_cons, closings_cons, openings_nil, closings_nil]
      at bound counted
    omega
  obtain ⟨last, readsRest, light⟩ := Postfix.State.exists_foldlM after
    (Postfix.State.perm_read readsFirst).1 fits openedRest
  have reads : (first :: rest).foldlM Postfix.State.read
      Postfix.State.initial = .ok last := by
    rw [List.foldlM_cons, readsFirst]
    exact readsRest
  have allClosed : openings last.tokens = 0 := by
    have total := Postfix.State.openings_foldlM reads
    have nothing : openings Postfix.State.initial.tokens = 0 := rfl
    omega
  have isOrdered : ∀ token ∈ last.tokens, token.IsOrdered := by
    intro token member
    obtain ⟨isSpelled, notClosing⟩ :=
      Postfix.State.isSpelled_foldlM reads spelled
        (by simp [Postfix.State.tokens, Postfix.State.initial]) token member
    exact ⟨isSpelled, openings_eq_zero_iff.mp allClosed token member,
      notClosing⟩
  have noOpening : last.pending.find? Postfix.isOpening = none := by
    rw [List.find?_eq_none]
    intro token member
    simpa [Postfix.isOpening] using
      (isOrdered token (List.mem_append_right _ member)).notOpening
  have finishes : last.finish = .ok (last.output.reverse ++ last.pending) := by
    rw [Postfix.State.finish, noOpening]
  refine ⟨last.output.reverse ++ last.pending, ?_, ?_, ?_⟩
  · rw [toPostfix, reads]
    exact finishes
  · intro token member
    exact isOrdered token (by simpa [Postfix.State.tokens] using member)
  · have complete : Postfix.IsLight 1 last.output (last.pending ++ []) := by
      rw [List.append_nil]
      exact light.mono last.complete_bounds.2
    have noOpenings : openings last.pending = 0 :=
      openings_eq_zero_iff.mpr fun token member =>
        (isOrdered token (List.mem_append_right _ member)).notOpening
    have written := (complete.write noOpenings).parts
    intro front isFront notAll
    rw [List.reverse_append, List.reverse_reverse] at isFront notAll
    have bound := written front isFront notAll
    rw [totalWeight_nil] at bound
    omega

end Token

namespace Expression

open Token

variable {maxDepth : Nat}

/-- What can go wrong in tokens in postfix order, read from behind: they can be
nested too deeply, or an operand can be missing. -/
theorem cause_of_build {depth position : Nat} {reversed : List Token}
    (ordered : ∀ token ∈ reversed, token.IsOrdered) {error : SyntaxError}
    (fails : build maxDepth depth position reversed = .error error) :
    error.cause = .tooDeep ∨ error.cause = .missingOperand := by
  unfold build at fails
  split at fails
  · cases fails
    exact .inl rfl
  split at fails
  · cases fails
    exact .inr rfl
  next token rest =>
      obtain ⟨spelled, notOpening, notClosing⟩ :=
        ordered token List.mem_cons_self
      have restOrdered : ∀ other ∈ rest, other.IsOrdered :=
        fun other member => ordered other (List.mem_cons_of_mem _ member)
      split at fails
      next isNumber =>
          obtain ⟨expression, isLeaf⟩ := Tree.exists_leafExpression? spelled
            (by rw [isNumber]; rfl)
          rw [Tree.leafExpression?, isNumber] at isLeaf
          obtain ⟨number, isNumeral, -⟩ := Option.map_eq_some_iff.mp isLeaf
          rw [isNumeral] at fails
          contradiction
      next => contradiction
      next => contradiction
      next operator isOperator =>
          rcases bind_eq_error_iff.mp fails with
            failsRight | ⟨⟨right, beforeRight, shorter⟩, buildsRight, fails⟩
          · exact cause_of_build restOrdered failsRight
          obtain ⟨tree, -, isWriting, -⟩ := exists_tree_of_build buildsRight
          have beforeOrdered : ∀ other ∈ beforeRight, other.IsOrdered :=
            fun other member => restOrdered other (isWriting ▸
              List.mem_append_right _ member)
          rcases bind_eq_error_iff.mp fails with failsLeft | ⟨left, -, fails⟩
          · exact cause_of_build beforeOrdered failsLeft
          · contradiction
      next isFunction =>
          rcases bind_eq_error_iff.mp fails with failsArgument | ⟨_, -, fails⟩
          · exact cause_of_build restOrdered failsArgument
          · contradiction
      next isOpening => exact absurd isOpening notOpening
      next isClosing => exact absurd isClosing notClosing
termination_by reversed.length
decreasing_by
  all_goals
    subst_vars
    simp only [List.length_cons] at *
    omega

/-- Nothing is left over before a tree, since the tokens of a tree weigh as much
as an operand. -/
theorem cause_of_ofPostfix {ordered : List Token}
    (isOrdered : ∀ token ∈ ordered, token.IsOrdered)
    (light : ∀ front, front <+: ordered.reverse → front ≠ ordered.reverse →
      totalWeight front ≤ 0)
    {error : SyntaxError}
    (fails : ofPostfix maxDepth ordered = .error error) :
    error.cause = .tooDeep ∨ error.cause = .missingOperand := by
  rw [ofPostfix] at fails
  rcases bind_eq_error_iff.mp fails with
    failsBuild | ⟨⟨expression, leftover, shorter⟩, builds, fails⟩
  · exact cause_of_build (fun token member =>
      isOrdered token (List.mem_reverse.mp member)) failsBuild
  · obtain ⟨tree, stands, isWriting, -⟩ := exists_tree_of_build builds
    dsimp only at fails isWriting
    split at fails
    · contradiction
    next extra rest =>
        exfalso
        have bound := light tree.writing.reverse ⟨_, isWriting.symm⟩ (by
          rw [isWriting]
          simp)
        rw [totalWeight_reverse, Tree.totalWeight_writing stands] at bound
        contradiction

private theorem build_of_lt {depth : Nat} (tooDeep : maxDepth < depth)
    (position : Nat) (reversed : List Token) :
    build maxDepth depth position reversed = .error ⟨.tooDeep, position⟩ := by
  unfold build
  rw [if_pos tooDeep]

/-- The writing of a tree that is nested too deeply is refused for that. -/
theorem exists_build_tooDeep {tree : Token.Tree} {expression : Expression}
    (stands : tree.expression? = some expression) {depth : Nat}
    (deep : maxDepth < depth + tree.nesting) (position : Nat)
    (before : List Token) :
    ∃ blamed, build maxDepth depth position (tree.writing.reverse ++ before) =
      .error ⟨.tooDeep, blamed⟩ := by
  induction tree generalizing expression depth position before with
  | leaf token => exact ⟨position, build_of_lt deep position _⟩
  | operation token left right leftIH rightIH =>
      obtain ⟨operator, first, second, isOperator, isFirst, isSecond, rfl⟩ :=
        Tree.expression?_operation_eq_some_iff.mp stands
      rw [Tree.nesting] at deep
      rw [Tree.reverse_writing_operation]
      by_cases tooDeep : maxDepth < depth
      · exact ⟨position, build_of_lt tooDeep position _⟩
      by_cases rightFits : depth + right.nesting ≤ maxDepth
      · obtain ⟨shorter, buildsRight⟩ := build_writing isSecond rightFits
          token.position (left.writing.reverse ++ before)
        obtain ⟨blamed, failsLeft⟩ := leftIH isFirst
          (show maxDepth < depth + left.nesting by omega) token.position before
        refine ⟨blamed, ?_⟩
        unfold build
        simp only [tooDeep, if_false, isOperator, buildsRight, failsLeft,
          ok_bind, error_bind]
      · obtain ⟨blamed, failsRight⟩ := rightIH isSecond
          (show maxDepth < depth + right.nesting by omega) token.position
          (left.writing.reverse ++ before)
        refine ⟨blamed, ?_⟩
        unfold build
        simp only [tooDeep, if_false, isOperator, failsRight, error_bind]
  | application token argument ih =>
      obtain ⟨isFunction, operand, isOperand, rfl⟩ :=
        Tree.expression?_application_eq_some_iff.mp stands
      rw [Tree.nesting] at deep
      rw [Tree.reverse_writing_application]
      by_cases tooDeep : maxDepth < depth
      · exact ⟨position, build_of_lt tooDeep position _⟩
      obtain ⟨blamed, fails⟩ := ih isOperand
        (show maxDepth < depth + 1 + argument.nesting by omega) token.position
        before
      refine ⟨blamed, ?_⟩
      unfold build
      simp only [tooDeep, if_false, isFunction, fails, error_bind]

theorem exists_ofPostfix_tooDeep {tree : Token.Tree} {expression : Expression}
    (stands : tree.expression? = some expression)
    (deep : maxDepth < tree.nesting) :
    ∃ blamed, ofPostfix maxDepth tree.writing = .error ⟨.tooDeep, blamed⟩ := by
  rw [ofPostfix, ← List.append_nil tree.writing.reverse]
  obtain ⟨blamed, fails⟩ := exists_build_tooDeep stands
    (show maxDepth < 0 + tree.nesting by omega)
    (((tree.writing.reverse ++ []).head?.map Token.position).getD 0) []
  refine ⟨blamed, ?_⟩
  simp only [fails, error_bind]

end Expression

namespace Token

/-- Tokens that miss an operand where the checks do not look for one: after a
function that closes them, or between an operator and a closing parenthesis. -/
def MissesOperand (tokens : List Token) : Prop :=
  (∃ last ∈ tokens.getLast?, last.kind = .function) ∨
    ∃ front operator closing back,
      tokens = front ++ operator :: closing :: back ∧
        operator.kind.isOperator = true ∧ closing.kind = .closeParen

/-- Tokens whose neighbours fit are readable unless they miss an operand. -/
theorem isReadable_of_not_missesOperand {tokens : List Token}
    (fits : tokens.IsChain Fits)
    (ends : ∀ last ∈ tokens.getLast?, last.kind.isOperator = false)
    (opened : ∀ front, front <+: tokens → closings front ≤ openings front)
    (balanced : closings tokens = openings tokens)
    (complete : ¬ MissesOperand tokens) : IsReadable tokens := by
  have closed : ∀ suffix, suffix <:+ tokens →
      openings suffix ≤ closings suffix := by
    rintro suffix ⟨front, rfl⟩
    have bound := opened front (List.prefix_append front suffix)
    rw [openings_append, closings_append] at balanced
    omega
  refine ⟨?_, fun last isLast => ?_, closed⟩
  · rw [List.isChain_iff_forall_rel_of_append_cons_cons] at fits ⊢
    intro first second front back isTokens
    exact ⟨fits isTokens, fun missing => complete
      (.inr ⟨front, first, second, back, isTokens, missing⟩)⟩
  · have notFunction : last.kind ≠ .function := fun isFunction =>
      complete (.inl ⟨last, isLast, isFunction⟩)
    have notOpening : last.kind ≠ .openParen := by
      intro isOpening
      obtain ⟨front, rfl⟩ := List.getLast?_eq_some_iff.mp isLast
      have bound := closed [last] ⟨front, rfl⟩
      simp [isOpening] at bound
    have notOperator := ends last isLast
    cases isKind : last.kind <;>
      simp_all [Kind.endsOperand, Kind.isAtom, Kind.isOperator]

theorem IsReadable.not_missesOperand {tokens : List Token}
    (readable : IsReadable tokens) : ¬ MissesOperand tokens := by
  rintro (⟨last, isLast, isFunction⟩ |
    ⟨front, operator, closing, back, rfl, missing⟩)
  · have ends := readable.ends last isLast
    rw [isFunction] at ends
    contradiction
  · have neighbours := List.isChain_iff_forall_rel_of_append_cons_cons.mp
      readable.neighbours rfl
    exact neighbours.notMissing missing

end Token

namespace Environment

variable {environment : Environment} {source : Text} {tokens : List Token}

/-- What the checks on characters and on neighbours say about tokens. -/
structure IsChecked (tokens : List Token) : Prop where
  spelled : ∀ token ∈ tokens, token.IsSpelled
  fits : tokens.IsChain Token.Fits
  begins : ∃ first rest, tokens = first :: rest ∧
    (first.kind.isOperator = true → first.kind = .operator .minus)
  ends : ∀ last ∈ tokens.getLast?, last.kind.isOperator = false
  opened : ∀ front, front <+: tokens → closings front ≤ openings front
  balanced : closings tokens = openings tokens

theorem isChecked_of_tokenize
    (tokenizes : environment.tokenize source = .ok tokens)
    (neighbours : Token.checkAdjacency tokens = .ok ()) : IsChecked tokens := by
  obtain ⟨-, checks, reads⟩ := Source.tokenize_eq_ok_iff.mp tokenizes
  have spells := spells_source environment.isClassification_classify reads
  have checksParentheses : Source.checkParentheses 0 [] source = .ok () := by
    unfold Source.check at checks
    split at checks
    · contradiction
    · exact (check_bind_eq_ok_iff.mp checks).1
  obtain ⟨opened, balanced⟩ :=
    Source.balanced_of_checkParentheses spells checksParentheses
  cases tokens with
  | nil => contradiction
  | cons first rest =>
      obtain ⟨fits, starts, ends⟩ := (Token.checkAdjacency_eq_ok_iff rfl
        (List.getLast?_eq_some_getLast (List.cons_ne_nil first rest))
        (spells.isSpelled first List.mem_cons_self)).mp neighbours
      refine ⟨spells.isSpelled, fits, ⟨first, rest, rfl, starts⟩, ?_,
        by simpa using opened, by simpa using balanced⟩
      intro last isLast
      rw [List.getLast?_eq_some_getLast (List.cons_ne_nil first rest)]
        at isLast
      cases isLast
      exact ends

/-- Checked tokens that miss no operand derive from the grammar. -/
theorem IsChecked.exists_derivesWhole (checked : IsChecked tokens)
    (complete : ¬ Token.MissesOperand tokens) :
    ∃ tree, DerivesWhole tokens tree := by
  have readable := Token.isReadable_of_not_missesOperand checked.fits
    checked.ends checked.opened checked.balanced complete
  obtain ⟨first, rest, rfl, starts⟩ := checked.begins
  refine GraphingCalculator.exists_derivesWhole readable checked.opened ?_
  have neverMore := checked.opened [first] ⟨rest, rfl⟩
  cases isKind : first.kind <;>
    simp_all [Token.Kind.beginsOperand, Token.Kind.isOperator, openings,
      closings]

/-- The one tree that checked tokens stand for, if they miss no operand. -/
theorem IsChecked.exists_tree (checked : IsChecked tokens)
    (complete : ¬ Token.MissesOperand tokens) :
    ∃ tree raw, DerivesWhole tokens tree ∧
      (∀ other, DerivesWhole tokens other → other = tree) ∧
        Token.toPostfix tokens = .ok tree.writing ∧
          tree.expression? = some raw := by
  obtain ⟨tree, derives⟩ := checked.exists_derivesWhole complete
  obtain ⟨raw, stands⟩ := derives.exists_expression? checked.spelled
  have converts := Token.toPostfix_of_derivesWhole derives
  refine ⟨tree, raw, derives, fun other otherDerives => ?_, converts, stands⟩
  obtain ⟨otherRaw, otherStands⟩ :=
    otherDerives.exists_expression? checked.spelled
  have sameWriting :=
    (Token.toPostfix_of_derivesWhole otherDerives).symm.trans converts
  exact Token.Tree.writing_inj otherStands stands (Except.ok.inj sameWriting)

/-- Nothing is built from checked tokens that miss an operand. -/
theorem IsChecked.not_missesOperand (checked : IsChecked tokens)
    {ordered : List Token} (converts : Token.toPostfix tokens = .ok ordered)
    {maxDepth : Nat} {expression : Expression}
    (builds : Expression.ofPostfix maxDepth ordered = .ok expression) :
    ¬ Token.MissesOperand tokens := by
  obtain ⟨tree, raw, rfl, stands, -⟩ :=
    Expression.ofPostfix_eq_ok_iff.mp builds
  obtain ⟨first, rest, rfl, starts⟩ := checked.begins
  obtain ⟨readable, -⟩ := Token.isReadable_of_toPostfix checked.fits
    (by simpa using starts) converts (Token.Tree.totalWeight_writing stands)
    (Token.Tree.openings_writing stands)
  exact readable.not_missesOperand

/-- Checked tokens are brought into postfix order, and the expression is refused
only if it is nested too deeply or misses an operand. -/
theorem IsChecked.exists_ordered (checked : IsChecked tokens) :
    ∃ ordered, Token.toPostfix tokens = .ok ordered ∧
      ∀ maxDepth error,
        Expression.ofPostfix maxDepth ordered = .error error →
          error.cause = .tooDeep ∨
            error.cause = .missingOperand ∧ Token.MissesOperand tokens := by
  obtain ⟨first, rest, rfl, starts⟩ := checked.begins
  obtain ⟨ordered, converts, isOrdered, light⟩ := Token.exists_toPostfix
    checked.spelled checked.fits starts checked.opened checked.balanced
  refine ⟨ordered, converts, fun maxDepth error fails => ?_⟩
  rcases Expression.cause_of_ofPostfix isOrdered light fails with
    tooDeep | missing
  · exact .inl tooDeep
  by_cases misses : Token.MissesOperand (first :: rest)
  · exact .inr ⟨missing, misses⟩
  · obtain ⟨tree, raw, -, -, isWriting, stands⟩ :=
      checked.exists_tree misses
    cases converts.symm.trans isWriting
    by_cases fits : tree.nesting ≤ maxDepth
    · have builds := Expression.ofPostfix_eq_ok_iff.mpr
        ⟨tree, raw, rfl, stands, fits, rfl⟩
      rw [fails] at builds
      contradiction
    · obtain ⟨blamed, tooDeep⟩ :=
        Expression.exists_ofPostfix_tooDeep stands (Nat.lt_of_not_le fits)
      cases fails.symm.trans tooDeep
      exact .inl rfl

/-- Tokens that passed both checks are always brought into postfix order.  An
expression is built from them exactly if they miss no operand and are not nested
too deeply, and then they stand for a single tree.  A compilation that fails
does so in the split into tokens, in a check, at a limit, or where an operand is
missing. -/
theorem compile_of_checked (environment : Environment) (source : Text) :
    (∀ tokens, environment.tokenize source = .ok tokens →
      Token.checkAdjacency tokens = .ok () →
        ∃ ordered, Token.toPostfix tokens = .ok ordered ∧
          (∀ maxDepth error,
            Expression.ofPostfix maxDepth ordered = .error error →
              error.cause = .tooDeep ∨
                error.cause = .missingOperand ∧ Token.MissesOperand tokens) ∧
          (Token.MissesOperand tokens → ∀ maxDepth expression,
            Expression.ofPostfix maxDepth ordered ≠ .ok expression) ∧
          (¬ Token.MissesOperand tokens → ∃ tree raw,
            DerivesWhole tokens tree ∧
              (∀ other, DerivesWhole tokens other → other = tree) ∧
                tree.writing = ordered ∧ tree.expression? = some raw ∧
                  ∀ maxDepth, tree.nesting ≤ maxDepth →
                    Expression.ofPostfix maxDepth ordered = .ok raw.fold)) ∧
      ∀ error, environment.compile source = .error error →
        environment.tokenize source = .error error ∨
          ∃ tokens, environment.tokenize source = .ok tokens ∧
            (checkLength environment.limits tokens = .error error ∨
              Token.checkAdjacency tokens = .error error ∨
                error.cause = .tooDeep ∨
                  error.cause = .missingOperand ∧
                    Token.MissesOperand tokens) := by
  refine ⟨fun tokens tokenizes neighbours => ?_, fun error fails => ?_⟩
  · have checked := isChecked_of_tokenize tokenizes neighbours
    obtain ⟨ordered, converts, causes⟩ := checked.exists_ordered
    refine ⟨ordered, converts, causes, fun misses maxDepth expression builds =>
      checked.not_missesOperand converts builds misses, fun complete => ?_⟩
    obtain ⟨tree, raw, derives, unique, isWriting, stands⟩ :=
      checked.exists_tree complete
    cases converts.symm.trans isWriting
    exact ⟨tree, raw, derives, unique, rfl, stands, fun maxDepth fits =>
      Expression.ofPostfix_eq_ok_iff.mpr ⟨tree, raw, rfl, stands, fits, rfl⟩⟩
  · rcases bind_eq_error_iff.mp fails with fails | ⟨tokens, tokenizes, fails⟩
    · exact .inl fails
    refine .inr ⟨tokens, tokenizes, ?_⟩
    rcases bind_eq_error_iff.mp fails with fails | ⟨_, -, fails⟩
    · exact .inl fails
    rcases bind_eq_error_iff.mp fails with fails | ⟨_, neighbours, fails⟩
    · exact .inr (.inl fails)
    obtain ⟨ordered, converts, causes⟩ :=
      (isChecked_of_tokenize tokenizes neighbours).exists_ordered
    rw [converts, ok_bind] at fails
    rcases bind_eq_error_iff.mp fails with fails | ⟨_, -, fails⟩
    · exact .inr (.inr (causes _ error fails))
    · contradiction

/-- An operator before a closing parenthesis and a function without parentheses
pass all checks, and miss an operand only afterwards. -/
theorem compile_missing_operand :
    Source.check "(2+)".toList = .ok () ∧
      (empty {}).compile "(2+)".toList = .error ⟨.missingOperand, 2⟩ ∧
        Source.check "sin".toList = .ok () ∧
          (empty {}).compile "sin".toList = .error ⟨.missingOperand, 0⟩ := by
  decide +kernel

end Environment
end GraphingCalculator
