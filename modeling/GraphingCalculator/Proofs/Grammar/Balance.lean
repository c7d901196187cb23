import GraphingCalculator.Proofs.Grammar.Derivation
import GraphingCalculator.Proofs.Token.Stacks
import Mathlib.Algebra.BigOperators.Group.List.Basic
import Mathlib.Algebra.Ring.Int.Defs

/-!
# What a successful conversion says about its tokens

The checks on neighbouring tokens let some sequences pass that are not in the
grammar, like an operator before a closing parenthesis.  Such a sequence is
refused in the end because an operand is missing.  To see this, every token is
weighed: an operand adds one and an operator takes one away, so that the tokens
of a whole tree weigh one.  Reading tokens keeps the weight at the number of
operands that are complete, except that a missing operand makes the tokens too
light for good.
-/

namespace GraphingCalculator

namespace Token

/-- An operator joins two operands to one, and a function leaves their number
as it is. -/
def weight (token : Token) : Int :=
  match token.kind with
  | .number | .freeVariable | .constant => 1
  | .operator _ => -1
  | _ => 0

/-- The number of operands that are complete after a token, within the
innermost operation that is not. -/
def Kind.complete (kind : Kind) : Int :=
  if kind.endsOperand then 1 else 0

/-- Two tokens that may stand side by side, and that miss no operand between
them. -/
structure Precedes (first second : Token) : Prop where
  fits : first.Fits second
  notMissing : ¬ (first.kind.isOperator = true ∧ second.kind = .closeParen)

end Token

/-- The weight of tokens together. -/
def totalWeight (tokens : List Token) : Int :=
  (tokens.map Token.weight).sum

@[simp]
theorem totalWeight_nil : totalWeight [] = 0 :=
  rfl

@[simp]
theorem totalWeight_cons (token : Token) (rest : List Token) :
    totalWeight (token :: rest) = token.weight + totalWeight rest := by
  simp [totalWeight]

@[simp]
theorem totalWeight_append (first second : List Token) :
    totalWeight (first ++ second) =
      totalWeight first + totalWeight second := by
  simp [totalWeight]

theorem totalWeight_perm {first second : List Token}
    (reordered : first.Perm second) :
    totalWeight first = totalWeight second :=
  (reordered.map Token.weight).sum_eq

/-- The writing of a tree weighs as much as a single operand. -/
theorem Token.Tree.totalWeight_writing {tree : Token.Tree}
    {expression : Expression} (stands : tree.expression? = some expression) :
    totalWeight tree.writing = 1 := by
  induction tree generalizing expression with
  | leaf token =>
      rw [expression?, leafExpression?] at stands
      split at stands <;> simp_all [writing, Token.weight]
  | operation token left right leftIH rightIH =>
      obtain ⟨operator, first, second, isOperator, isFirst, isSecond, -⟩ :=
        expression?_operation_eq_some_iff.mp stands
      simp [writing, leftIH isFirst, rightIH isSecond, Token.weight, isOperator]
  | application token argument ih =>
      obtain ⟨isFunction, operand, isOperand, -⟩ :=
        expression?_application_eq_some_iff.mp stands
      simp [writing, ih isOperand, Token.weight, isFunction]

namespace Postfix.State

/-- A state that holds a token besides an opening parenthesis that was read just
before. -/
def IsOccupied (state : State) : Prop :=
  ∃ token ∈ state.tokens, token.kind = .openParen →
    state.previous = some .openParen

variable {state next last : State} {token before : Token}

theorem isOccupied_read (reads : state.read token = .ok next)
    (afterOpening : state.previous = some .openParen →
      token.kind ≠ .closeParen)
    (occupied : token.kind = .closeParen → state.IsOccupied) :
    next.IsOccupied := by
  obtain ⟨isPrevious, ⟨-, added⟩ | ⟨isClosing, opening, isOpening, taken⟩⟩ :=
    perm_read reads
  · exact ⟨token, added.mem_iff.mpr List.mem_cons_self,
      fun isOpening => by rw [isPrevious, isOpening]⟩
  · obtain ⟨found, member, notOpening⟩ := occupied isClosing
    have isOther : found.kind ≠ .openParen := fun isOpening =>
      afterOpening (notOpening isOpening) isClosing
    refine ⟨found, ?_, fun isOpening => absurd isOpening isOther⟩
    rcases List.mem_cons.mp (taken.mem_iff.mp member) with rfl | inNext
    · exact absurd isOpening isOther
    · exact inNext

/-- How one token changes the weight of a state. -/
theorem totalWeight_read (reads : state.read token = .ok next)
    (occupied : state.IsOccupied)
    (isBefore : state.previous = some before.kind)
    (fits : before.Fits token) :
    totalWeight next.tokens - token.kind.complete ≤
        totalWeight state.tokens - before.kind.complete ∧
      (totalWeight next.tokens - token.kind.complete =
          totalWeight state.tokens - before.kind.complete →
        before.Precedes token) := by
  have noZeros : state.impliedZeros token = [] := by
    obtain ⟨found, member, -⟩ := occupied
    rw [impliedZeros, if_neg]
    rintro ⟨-, noTokens⟩
    simp [noTokens] at member
  obtain ⟨-, ⟨notClosing, added⟩ | ⟨isClosing, opening, isOpening, taken⟩⟩ :=
    perm_read reads
  · have weighs := totalWeight_perm added
    have change : token.weight + totalWeight (state.impliedProducts token) -
        token.kind.complete ≤ -before.kind.complete := by
      rw [Token.Fits] at fits
      rw [impliedProducts, isBefore]
      cases isFirst : before.kind <;> cases isSecond : token.kind <;>
        simp_all [Token.pairFault?, Token.Kind.complete,
          Token.Kind.endsOperand, Token.Kind.isAtom, Token.Kind.beginsOperand,
          Token.weight, Token.impliedProduct]
    simp only [noZeros, List.nil_append, totalWeight_cons, totalWeight_append]
      at weighs
    exact ⟨by omega, fun _ => ⟨fits, fun missing => notClosing missing.2⟩⟩
  · have weighs := totalWeight_perm taken
    have weightless : opening.weight = 0 := by rw [Token.weight, isOpening]
    rw [totalWeight_cons, weightless] at weighs
    rw [isClosing]
    have closed : Token.Kind.closeParen.complete = 1 := rfl
    have atMostOne : before.kind.complete ≤ 1 := by
      unfold Token.Kind.complete
      split <;> simp
    refine ⟨by omega, fun equal => ⟨fits, fun missing => ?_⟩⟩
    have isOperator := missing.1
    have notComplete : before.kind.complete = 0 := by
      cases isKind : before.kind <;>
        simp_all [Token.Kind.isOperator, Token.Kind.complete,
          Token.Kind.endsOperand, Token.Kind.isAtom]
    omega

/-- Reading the rest of the tokens: the weight falls behind exactly where an
operand is missing. -/
theorem totalWeight_foldlM {rest : List Token}
    (reads : rest.foldlM read state = .ok last)
    (occupied : state.IsOccupied)
    (isBefore : state.previous = some before.kind)
    (fits : (before :: rest).IsChain Token.Fits) :
    ∃ final, (before :: rest).getLast? = some final ∧
      totalWeight last.tokens - final.kind.complete ≤
        totalWeight state.tokens - before.kind.complete ∧
      (totalWeight last.tokens - final.kind.complete =
          totalWeight state.tokens - before.kind.complete →
        (before :: rest).IsChain Token.Precedes) := by
  induction rest generalizing state before with
  | nil =>
      cases reads
      exact ⟨before, rfl, Int.le_refl _, fun _ => .singleton before⟩
  | cons token rest ih =>
      rw [List.foldlM_cons, bind_eq_ok_iff] at reads
      obtain ⟨next, readsToken, readsRest⟩ := reads
      obtain ⟨fitsToken, fitsRest⟩ := List.isChain_cons_cons.mp fits
      have afterOpening : state.previous = some .openParen →
          token.kind ≠ .closeParen := by
        rw [isBefore]
        intro isOpening isClosing
        rw [Token.Fits, Option.some.inj isOpening, isClosing] at fitsToken
        contradiction
      obtain ⟨neverMore, exactly⟩ :=
        totalWeight_read readsToken occupied isBefore fitsToken
      obtain ⟨final, isFinal, restNeverMore, restExactly⟩ :=
        ih readsRest
          (isOccupied_read readsToken afterOpening fun _ => occupied)
          (perm_read readsToken).1 fitsRest
      refine ⟨final, by simpa [List.getLast?_cons_cons] using isFinal,
        by omega, fun equal => ?_⟩
      exact List.isChain_cons_cons.mpr
        ⟨exactly (by omega), restExactly (by omega)⟩

end Postfix.State

/-- The number of opening parentheses among tokens. -/
def openings (tokens : List Token) : Nat :=
  tokens.countP fun token => token.kind = .openParen

/-- The number of closing parentheses among tokens. -/
def closings (tokens : List Token) : Nat :=
  tokens.countP fun token => token.kind = .closeParen

section Counting

variable (token : Token) (first second : List Token)

@[simp]
theorem openings_nil : openings [] = 0 :=
  rfl

@[simp]
theorem closings_nil : closings [] = 0 :=
  rfl

@[simp]
theorem openings_cons :
    openings (token :: first) =
      openings first + if token.kind = .openParen then 1 else 0 := by
  simp [openings, List.countP_cons]

@[simp]
theorem closings_cons :
    closings (token :: first) =
      closings first + if token.kind = .closeParen then 1 else 0 := by
  simp [closings, List.countP_cons]

@[simp]
theorem openings_append :
    openings (first ++ second) = openings first + openings second :=
  List.countP_append

@[simp]
theorem closings_append :
    closings (first ++ second) = closings first + closings second :=
  List.countP_append

variable {first second}

theorem openings_perm (same : first.Perm second) :
    openings first = openings second :=
  same.countP_eq _

theorem openings_eq_zero_iff :
    openings first = 0 ↔ ∀ token ∈ first, token.kind ≠ .openParen := by
  simp [openings, List.countP_eq_zero]

end Counting

namespace Postfix.State

/-- The opening parentheses that a state holds are those that were read and not
closed since. -/
theorem openings_foldlM {tokens : List Token} {state last : State}
    (reads : tokens.foldlM read state = .ok last) :
    openings last.tokens + closings tokens =
      openings state.tokens + openings tokens := by
  induction tokens generalizing state with
  | nil =>
      cases reads
      rfl
  | cons token rest ih =>
      rw [List.foldlM_cons, bind_eq_ok_iff] at reads
      obtain ⟨next, readsToken, readsRest⟩ := reads
      have counted := ih readsRest
      have notProducts : openings (state.impliedProducts token) = 0 := by
        unfold impliedProducts
        split <;> simp [Token.impliedProduct]
      have notZeros : openings (state.impliedZeros token) = 0 := by
        unfold impliedZeros
        split <;> simp [Token.impliedZero]
      obtain ⟨-, ⟨notClosing, added⟩ |
          ⟨isClosing, opening, isOpening, taken⟩⟩ :=
        perm_read readsToken
      · have same := openings_perm added
        simp only [openings_cons, openings_append] at same
        simp only [openings_cons, closings_cons, notClosing, if_false]
        omega
      · have same := openings_perm taken
        simp only [openings_cons, isOpening, if_true] at same
        simp only [openings_cons, closings_cons, isClosing, if_true,
          reduceCtorEq, if_false]
        omega

/-- The first token leaves nothing missing. -/
theorem totalWeight_read_initial (reads : initial.read token = .ok next)
    (starts : token.kind.isOperator = true → token.kind = .operator .minus) :
    totalWeight next.tokens = token.kind.complete ∧
      token.kind ≠ .closeParen := by
  have noProducts : initial.impliedProducts token = [] := by
    simp [impliedProducts, initial]
  obtain ⟨-, ⟨notClosing, added⟩ | ⟨isClosing, opening, isOpening, taken⟩⟩ :=
    perm_read reads
  · refine ⟨?_, notClosing⟩
    have weighs := totalWeight_perm added
    rw [noProducts, impliedZeros] at weighs
    cases isKind : token.kind <;>
      simp_all [initial, tokens, Token.weight, Token.Kind.complete,
        Token.Kind.endsOperand, Token.Kind.isAtom, Token.Kind.isOperator,
        Token.impliedZero]
  · exact absurd taken.length_eq (by simp [initial, tokens])

end Postfix.State

namespace Token

/-- Tokens that can be read operand by operand: no neighbours miss an operand,
an operand is complete at the end, and every opening parenthesis is closed. -/
structure IsReadable (tokens : List Token) : Prop where
  neighbours : tokens.IsChain Precedes
  ends : ∀ last ∈ tokens.getLast?, last.kind.endsOperand = true
  closed : ∀ suffix, suffix <:+ tokens → openings suffix ≤ closings suffix

/-- Tokens whose neighbours fit and that convert into the writing of a tree are
readable, and no parenthesis is closed that is not open. -/
theorem isReadable_of_toPostfix {tokens ordered : List Token}
    (fits : tokens.IsChain Fits)
    (starts : ∀ first ∈ tokens.head?, first.kind.isOperator = true →
      first.kind = .operator .minus)
    (converts : toPostfix tokens = .ok ordered)
    (weighs : totalWeight ordered = 1) (noOpenings : openings ordered = 0) :
    IsReadable tokens ∧
      ∀ front, front <+: tokens → closings front ≤ openings front := by
  obtain ⟨last, reads, finishes⟩ := bind_eq_ok_iff.mp converts
  have isOrdered : ordered.Perm last.tokens := by
    unfold Postfix.State.finish at finishes
    split at finishes
    · contradiction
    · cases finishes
      exact last.output.reverse_perm.append_right last.pending
  have lastWeighs : totalWeight last.tokens = 1 := by
    rw [← totalWeight_perm isOrdered, weighs]
  have lastOpenings : openings last.tokens = 0 := by
    rw [← openings_perm isOrdered, noOpenings]
  have split (front suffix : List Token) (isTokens : front ++ suffix = tokens) :
      closings front ≤ openings front ∧ openings suffix ≤ closings suffix := by
    rw [← isTokens, List.foldlM_append, bind_eq_ok_iff] at reads
    obtain ⟨middle, readsFront, readsSuffix⟩ := reads
    have countedFront := Postfix.State.openings_foldlM readsFront
    have countedSuffix := Postfix.State.openings_foldlM readsSuffix
    have nothing : openings Postfix.State.initial.tokens = 0 := rfl
    omega
  have chained : tokens.IsChain Precedes ∧
      ∀ last ∈ tokens.getLast?, last.kind.endsOperand = true := by
    cases tokens with
    | nil =>
        cases reads
        simp [Postfix.State.tokens, Postfix.State.initial] at lastWeighs
    | cons first rest =>
        rw [List.foldlM_cons, bind_eq_ok_iff] at reads
        obtain ⟨next, readsFirst, readsRest⟩ := reads
        obtain ⟨startsWith, notClosing⟩ :=
          Postfix.State.totalWeight_read_initial readsFirst (starts first rfl)
        have occupied : next.IsOccupied :=
          Postfix.State.isOccupied_read readsFirst (fun impossible => by
            cases impossible) fun isClosing => absurd isClosing notClosing
        obtain ⟨final, isFinal, neverMore, exactly⟩ :=
          Postfix.State.totalWeight_foldlM readsRest occupied
            (Postfix.State.perm_read readsFirst).1 fits
        -- A whole tree weighs one, and so nothing was missing on the way.
        have ends : final.kind.endsOperand = true := by
          by_contra notEnds
          have notComplete : final.kind.complete = 0 := by
            simp [Kind.complete, notEnds]
          omega
        have complete : final.kind.complete = 1 := by
          simp [Kind.complete, ends]
        refine ⟨exactly (by omega), fun last isLast => ?_⟩
        rw [isFinal] at isLast
        cases isLast
        exact ends
  refine ⟨⟨chained.1, chained.2, ?_⟩, ?_⟩
  · rintro suffix ⟨front, isTokens⟩
    exact (split front suffix isTokens).2
  · rintro front ⟨suffix, isTokens⟩
    exact (split front suffix isTokens).1

end Token
end GraphingCalculator
