import GraphingCalculator.Proofs.Grammar.Derivation
import GraphingCalculator.Proofs.Token.Stacks

/-!
# Derivations in postfix order

Tokens that derive from the grammar are brought into the postfix order of their
tree.  While an operand of some level is read, everything below it on the stack
of waiting tokens keeps still, because it is an open parenthesis or an operator
that binds less tightly.  What the operand leaves on top of it are operators of
its own level or tighter ones, and the next operator of that level writes them.
-/

namespace GraphingCalculator

/-- How tightly the operators of a level bind. -/
def Level.precedence : Level → Nat
  | sum => 1
  | product => 2
  | power => 3
  | atom => 4

theorem Level.precedence_le_tighter (level : Level) :
    level.precedence ≤ level.tighter.precedence := by
  cases level <;> simp [tighter, precedence]

theorem Level.precedence_of_mem_operators {level : Level} {operator : Operator}
    (isOfLevel : operator ∈ level.operators) :
    operator.precedence = level.precedence := by
  cases level <;> cases operator <;>
    simp_all [operators, Operator.precedence, precedence]

namespace Postfix

/-- What may wait below an operand of a level: nothing, an open parenthesis, or
an operator that binds less tightly. -/
def KeepsStill (level : Level) (pending : List Token) : Prop :=
  ∀ top ∈ pending.head?, top.kind = .openParen ∨
    ∃ operator, top.kind = .operator operator ∧
      operator.precedence < level.precedence

/-- What waits is written before an operator of a level. -/
def Flushes (level : Level) (waiting : List Token) : Prop :=
  ∀ token ∈ waiting, ∃ operator, token.kind = .operator operator ∧
    level.precedence ≤ operator.precedence

variable {level : Level} {state : State} {token : Token}
variable {waiting below : List Token}

theorem precedes_of_isOperator {operator next : Operator}
    (isOperator : token.kind = .operator operator) :
    precedes next token = decide (next.precedence ≤ operator.precedence) := by
  rw [precedes, isOperator]
  simp [Operator.isAppliedBefore, Operator.isLeftAssociative]

/-- The next operator of a level separates what waits from what keeps
still. -/
theorem span_precedes {operator : Operator}
    (isOfLevel : operator.precedence = level.precedence)
    (flushes : Flushes level waiting) (still : KeepsStill level below) :
    (waiting ++ below).takeWhile (precedes operator) = waiting ∧
      (waiting ++ below).dropWhile (precedes operator) = below := by
  have written : ∀ token ∈ waiting, precedes operator token = true := by
    intro token member
    obtain ⟨earlier, isOperator, tight⟩ := flushes token member
    rw [precedes_of_isOperator isOperator, isOfLevel]
    simpa using tight
  rw [List.takeWhile_append_of_pos written,
    List.dropWhile_append_of_pos written]
  cases below with
  | nil => simp
  | cons top rest =>
      have stops : precedes operator top = false := by
        rcases still top rfl with isOpening | ⟨earlier, isOperator, loose⟩
        · rw [precedes, isOpening]
        · rw [precedes_of_isOperator isOperator, isOfLevel]
          simpa using loose
      simp [stops]

namespace State

theorem read_operand (notAtom : state.previous.any Token.Kind.isAtom = false)
    (isAtom : token.kind.isAtom = true) :
    state.read token =
      .ok ⟨token :: state.output, state.pending, some token.kind⟩ := by
  rw [read, joinOperands_of_not_isAtom notAtom]
  cases isKind : token.kind <;> simp_all [Token.Kind.isAtom]

theorem read_function (notAtom : state.previous.any Token.Kind.isAtom = false)
    (waits : token.kind = .function ∨ token.kind = .openParen) :
    state.read token =
      .ok ⟨state.output, token :: state.pending, some token.kind⟩ := by
  rw [read, joinOperands_of_not_isAtom notAtom]
  rcases waits with isKind | isKind <;> simp [isKind]

theorem read_operator {operator : Operator} {output : List Token}
    {previous : Option Token.Kind}
    (isOperator : token.kind = .operator operator)
    (isOfLevel : operator ∈ level.operators)
    (flushes : Flushes level waiting) (still : KeepsStill level below)
    (nonempty : output ≠ []) :
    (State.mk output (waiting ++ below) previous).read token =
      .ok ⟨waiting.reverse ++ output, token :: below, some token.kind⟩ := by
  obtain ⟨taken, dropped⟩ := span_precedes
    (Level.precedence_of_mem_operators isOfLevel) flushes still
  have notOperand : token.kind.beginsOperand = false := by rw [isOperator]; rfl
  rw [read, joinOperands_of_not_beginsOperand notOperand, isOperator]
  have written : output.isEmpty = false := by simpa using nonempty
  simp [startWithZero, written, pushOperator, taken, dropped]

theorem span_isOpening {opening : Token} (isOpening : opening.kind = .openParen)
    (flushes : Flushes level waiting) (below : List Token) :
    ((waiting ++ opening :: below).takeWhile
        fun waiting => !Postfix.isOpening waiting) = waiting ∧
      ((waiting ++ opening :: below).dropWhile
        fun waiting => !Postfix.isOpening waiting) = opening :: below := by
  have inside : ∀ token ∈ waiting, (!Postfix.isOpening token) = true := by
    intro token member
    obtain ⟨operator, isOperator, -⟩ := flushes token member
    simp [Postfix.isOpening, isOperator]
  rw [List.takeWhile_append_of_pos inside, List.dropWhile_append_of_pos inside]
  simp [Postfix.isOpening, isOpening]

/-- A closing parenthesis writes what waits inside of it. -/
theorem read_closing_group {opening : Token} {output : List Token}
    {previous : Option Token.Kind} (isClosing : token.kind = .closeParen)
    (isOpening : opening.kind = .openParen) (flushes : Flushes level waiting)
    (still : KeepsStill .atom below) :
    (State.mk output (waiting ++ opening :: below) previous).read token =
      .ok ⟨waiting.reverse ++ output, below, some token.kind⟩ := by
  obtain ⟨taken, dropped⟩ :=
    span_isOpening isOpening flushes below
  have notOperand : token.kind.beginsOperand = false := by rw [isClosing]; rfl
  rw [read, joinOperands_of_not_beginsOperand notOperand, isClosing]
  simp only [closeParenthesis, taken, dropped]
  cases below with
  | nil => rfl
  | cons caller outer =>
      have notFunction : caller.kind ≠ .function := by
        intro isFunction
        rcases still caller rfl with isOpen | ⟨operator, isOperator, -⟩
        · simp [isFunction] at isOpen
        · simp [isFunction] at isOperator
      simp [notFunction]

/-- The closing parenthesis of an application writes the function as well. -/
theorem read_closing_application {function opening : Token}
    {output : List Token} {previous : Option Token.Kind}
    (isClosing : token.kind = .closeParen)
    (isOpening : opening.kind = .openParen)
    (isFunction : function.kind = .function)
    (flushes : Flushes level waiting) :
    (State.mk output (waiting ++ opening :: function :: below) previous).read
        token =
      .ok ⟨function :: (waiting.reverse ++ output), below,
        some token.kind⟩ := by
  obtain ⟨taken, dropped⟩ :=
    span_isOpening isOpening flushes (function :: below)
  have notOperand : token.kind.beginsOperand = false := by rw [isClosing]; rfl
  rw [read, joinOperands_of_not_beginsOperand notOperand, isClosing]
  simp only [closeParenthesis, taken, dropped]
  simp [isFunction]

/-- An operand after an atom is read like an operand after the multiplication
that is implied. -/
theorem read_juxtaposed {output : List Token} {last : Token.Kind}
    (isAtom : last.isAtom = true) (begins : token.kind.beginsOperand = true)
    (flushes : Flushes .product waiting) (still : KeepsStill .product below) :
    (State.mk output (waiting ++ below) (some last)).read token =
      (State.mk (waiting.reverse ++ output)
        (.impliedProduct token.position :: below) none).read token := by
  obtain ⟨taken, dropped⟩ := span_precedes
    (show Operator.times.precedence = Level.product.precedence from rfl)
    flushes still
  have joined : (State.mk output (waiting ++ below) (some last)).joinOperands
      token = ⟨waiting.reverse ++ output,
        .impliedProduct token.position :: below, some last⟩ := by
    simp [joinOperands, isAtom, begins, pushOperator, taken, dropped]
  rw [read, read, joined, joinOperands_of_not_isAtom (by simp)]

/-- Reading tokens from a state writes a tree, except for some operators at the
end which wait on top of what waited before. -/
def Writes (level : Level) (tokens : List Token) (tree : Token.Tree)
    (state : State) : Prop :=
  ∃ written waiting,
    tokens.foldlM State.read state =
        .ok ⟨written.reverse ++ state.output, waiting ++ state.pending,
          tokens.getLast?.map Token.kind⟩ ∧
      written ++ waiting = tree.writing ∧ written ≠ [] ∧
        Flushes level waiting

end State

open State

theorem KeepsStill.tighter (still : KeepsStill level below) :
    KeepsStill level.tighter below := by
  intro top isTop
  refine (still top isTop).imp id ?_
  rintro ⟨operator, isOperator, loose⟩
  refine ⟨operator, isOperator, Nat.lt_of_lt_of_le loose ?_⟩
  cases level <;> simp [Level.tighter, Level.precedence]

theorem keepsStill_cons_isOpening (isOpening : token.kind = .openParen) :
    KeepsStill level (token :: below) := by
  intro top isTop
  cases isTop
  exact .inl isOpening

/-- An operator keeps still below its right operand. -/
theorem keepsStill_cons_operator {operator : Operator}
    (isOperator : token.kind = .operator operator)
    (isOfLevel : operator ∈ level.operators) :
    KeepsStill level.tighter (token :: below) := by
  intro top isTop
  cases isTop
  refine .inr ⟨operator, isOperator, ?_⟩
  rw [Level.precedence_of_mem_operators isOfLevel]
  cases level <;> simp [Level.operators] at isOfLevel <;>
    simp [Level.tighter, Level.precedence]

theorem Flushes.mono {other : Level} (flushes : Flushes level waiting)
    (looser : other.precedence ≤ level.precedence) :
    Flushes other waiting := by
  intro token member
  obtain ⟨operator, isOperator, tight⟩ := flushes token member
  exact ⟨operator, isOperator, Nat.le_trans looser tight⟩

theorem Flushes.concat {operator : Operator} (flushes : Flushes level waiting)
    (isOperator : token.kind = .operator operator)
    (tight : level.precedence ≤ operator.precedence) :
    Flushes level (waiting ++ [token]) := by
  intro other member
  rcases List.mem_append.mp member with inWaiting | isToken
  · exact flushes other inWaiting
  · rw [List.mem_singleton] at isToken
    exact ⟨operator, isToken ▸ isOperator, tight⟩

theorem State.Writes.loosen {tokens : List Token} {tree : Token.Tree}
    (writes : Writes level.tighter tokens tree state) :
    Writes level tokens tree state := by
  obtain ⟨written, waiting, reads, isWriting, nonempty, flushes⟩ := writes
  exact ⟨written, waiting, reads, isWriting, nonempty,
    flushes.mono level.precedence_le_tighter⟩

/-- An operator between two operands is written after both of them. -/
theorem State.Writes.operation {operator : Operator}
    {leftTokens rightTokens : List Token} {left right : Token.Tree}
    (writesLeft : Writes level leftTokens left state)
    (still : KeepsStill level state.pending)
    (isOperator : token.kind = .operator operator)
    (isOfLevel : operator ∈ level.operators)
    (nonempty : rightTokens ≠ [])
    (writesRight : ∀ output, Writes level.tighter rightTokens right
      ⟨output, token :: state.pending, some token.kind⟩) :
    Writes level (leftTokens ++ token :: rightTokens)
      (.operation token left right) state := by
  obtain ⟨leftWritten, leftWaiting, leftReads, leftWriting, leftNonempty,
    leftFlushes⟩ := writesLeft
  obtain ⟨rightWritten, rightWaiting, rightReads, rightWriting, -,
    rightFlushes⟩ := writesRight
      (leftWaiting.reverse ++ (leftWritten.reverse ++ state.output))
  refine ⟨leftWritten ++ leftWaiting ++ rightWritten,
    rightWaiting ++ [token], ?_, ?_, by simp [leftNonempty], ?_⟩
  · obtain ⟨next, rest, rfl⟩ := List.exists_cons_of_ne_nil nonempty
    rw [List.foldlM_append, leftReads, ok_bind, List.foldlM_cons,
      read_operator isOperator isOfLevel leftFlushes still
        (by simp [leftNonempty]),
      ok_bind, rightReads]
    simp [List.getLast?_append, List.getLast?_cons]
  · rw [Token.Tree.writing, ← leftWriting, ← rightWriting]
    simp
  · exact (rightFlushes.mono level.precedence_le_tighter).concat isOperator
      (Nat.le_of_eq (Level.precedence_of_mem_operators isOfLevel).symm)

/-- Tokens that derive from the grammar are written as their tree, from every
state whose stack keeps still below them. -/
theorem writes_of_derives {tokens : List Token} {tree : Token.Tree}
    (derives : Derives level tokens tree) {state : State}
    (still : KeepsStill level state.pending)
    (notAtom : state.previous.any Token.Kind.isAtom = false) :
    Writes level tokens tree state := by
  induction derives generalizing state with
  | @operand token isAtom =>
      refine ⟨[token], [], ?_, rfl, by simp, by simp [Flushes]⟩
      rw [List.foldlM_cons, read_operand notAtom isAtom]
      rfl
  | @group opening closing tokens tree isOpening isClosing inside ih =>
      obtain ⟨written, waiting, reads, isWriting, nonempty, flushes⟩ :
          Writes .sum tokens tree
            ⟨state.output, opening :: state.pending, some opening.kind⟩ :=
        ih (keepsStill_cons_isOpening isOpening) (by rw [isOpening]; rfl)
      refine ⟨written ++ waiting, [], ?_, by simpa using isWriting,
        by simp [nonempty], by simp [Flushes]⟩
      rw [List.foldlM_cons, read_function notAtom (.inr isOpening), ok_bind,
        List.foldlM_append, reads, ok_bind, List.foldlM_cons,
        read_closing_group isClosing isOpening flushes still]
      simp [List.getLast?_cons, pure, Except.pure]
  | @application function opening closing tokens tree isFunction isOpening
      isClosing inside ih =>
      obtain ⟨written, waiting, reads, isWriting, nonempty, flushes⟩ :
          Writes .sum tokens tree
            ⟨state.output, opening :: function :: state.pending,
              some opening.kind⟩ :=
        ih (keepsStill_cons_isOpening isOpening) (by rw [isOpening]; rfl)
      refine ⟨written ++ waiting ++ [function], [], ?_, ?_, by simp,
        by simp [Flushes]⟩
      · have afterFunction : (some function.kind).any Token.Kind.isAtom =
            false := by
          rw [isFunction]
          rfl
        rw [List.foldlM_cons, read_function notAtom (.inl isFunction), ok_bind,
          List.foldlM_cons, read_function afterFunction (.inr isOpening),
          ok_bind, List.foldlM_append, reads, ok_bind, List.foldlM_cons,
          read_closing_application isClosing isOpening isFunction flushes]
        simp [List.getLast?_cons, pure, Except.pure]
      · rw [Token.Tree.writing, ← isWriting, List.append_nil]
  | tighter operand ih => exact State.Writes.loosen (ih still.tighter notAtom)
  | @operation level token operator leftTokens rightTokens left right first
      isOperator isOfLevel second firstIH secondIH =>
      obtain ⟨next, rest, rfl, -⟩ := second.exists_first
      exact State.Writes.operation (firstIH still notAtom) still isOperator
        isOfLevel (by simp) fun output =>
          secondIH (keepsStill_cons_operator isOperator isOfLevel)
            (by rw [isOperator]; rfl)
  | @juxtaposition last next leftTokens rightTokens left right first isLast
      isAtom isNext notNumbers second firstIH secondIH =>
      obtain ⟨leftWritten, leftWaiting, leftReads, leftWriting, leftNonempty,
        leftFlushes⟩ := firstIH still notAtom
      obtain ⟨token, rest, rfl, begins⟩ := second.exists_first
      cases isNext
      have isTimes : (Token.impliedProduct next.position).kind =
          .operator .times := rfl
      have isOfLevel : Operator.times ∈ Level.product.operators := by
        simp [Level.operators]
      obtain ⟨rightWritten, rightWaiting, rightReads, rightWriting,
          rightNonempty, rightFlushes⟩ : Writes .power (next :: rest) right
            ⟨leftWaiting.reverse ++ (leftWritten.reverse ++ state.output),
              .impliedProduct next.position :: state.pending, none⟩ :=
        secondIH (keepsStill_cons_operator isTimes isOfLevel) rfl
      refine ⟨leftWritten ++ leftWaiting ++ rightWritten,
        rightWaiting ++ [.impliedProduct next.position], ?_, ?_,
        by simp [leftNonempty], ?_⟩
      · rw [List.foldlM_cons] at rightReads
        rw [List.foldlM_append, leftReads, ok_bind, List.foldlM_cons, isLast,
          Option.map_some, read_juxtaposed isAtom begins leftFlushes still,
          rightReads]
        simp [List.getLast?_append, List.getLast?_cons]
      · rw [Token.Tree.writing, ← leftWriting, ← rightWriting]
        simp
      · exact Flushes.concat (rightFlushes.mono (by decide)) isTimes (by decide)

/-- The same for a whole expression and the state before the first token. -/
theorem writes_of_derivesWhole {tokens : List Token} {tree : Token.Tree}
    (derives : DerivesWhole tokens tree) :
    Writes .sum tokens tree State.initial := by
  have nothing : KeepsStill .product State.initial.pending := by
    simp [KeepsStill, State.initial]
  induction derives with
  | term first =>
      exact State.Writes.loosen (writes_of_derives first nothing rfl)
  | @negated minus tokens tree isMinus first =>
      obtain ⟨next, rest, rfl, -⟩ := first.exists_first
      have isOfLevel : Operator.minus ∈ Level.sum.operators := by
        simp [Level.operators]
      obtain ⟨written, waiting, reads, isWriting, nonempty, flushes⟩ :
          Writes .product (next :: rest) tree
            ⟨[.impliedZero minus.position], [minus], some minus.kind⟩ :=
        writes_of_derives first (keepsStill_cons_operator isMinus isOfLevel)
          (by rw [isMinus]; rfl)
      have readsMinus : State.initial.read minus =
          .ok ⟨[.impliedZero minus.position], [minus], some minus.kind⟩ := by
        simp [State.read, isMinus, State.initial, joinOperands, startWithZero,
          pushOperator]
      refine ⟨.impliedZero minus.position :: written, waiting ++ [minus],
        ?_, ?_, by simp, ?_⟩
      · rw [List.foldlM_cons, readsMinus, ok_bind, reads]
        simp [State.initial, List.getLast?_cons]
      · rw [Token.Tree.writing, Token.Tree.writing, ← isWriting]
        simp
      · exact Flushes.concat (flushes.mono (by decide)) isMinus (by decide)
  | @operation token operator leftTokens rightTokens left right first isOperator
      isOfLevel second ih =>
      obtain ⟨next, rest, rfl, -⟩ := second.exists_first
      refine State.Writes.operation ih (by simp [KeepsStill, State.initial])
        isOperator isOfLevel (by simp) fun output => ?_
      exact writes_of_derives second
        (keepsStill_cons_operator isOperator isOfLevel)
        (by rw [isOperator]; rfl)

end Postfix

/-- The tokens of an expression are brought into the postfix order of its
tree. -/
theorem Token.toPostfix_of_derivesWhole {tokens : List Token}
    {tree : Token.Tree} (derives : DerivesWhole tokens tree) :
    toPostfix tokens = .ok tree.writing := by
  obtain ⟨written, waiting, reads, isWriting, -, flushes⟩ :=
    Postfix.writes_of_derivesWhole derives
  rw [toPostfix, reads, ok_bind, Postfix.State.finish]
  have noOpening : (waiting ++ Postfix.State.initial.pending).find?
      Postfix.isOpening = none := by
    rw [List.find?_eq_none]
    intro token member
    simp only [Postfix.State.initial, List.append_nil] at member
    obtain ⟨operator, isOperator, -⟩ := flushes token member
    simp [Postfix.isOpening, isOperator]
  rw [noOpening, ← isWriting]
  simp [Postfix.State.initial]

end GraphingCalculator
