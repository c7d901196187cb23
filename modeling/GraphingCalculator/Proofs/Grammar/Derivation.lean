import GraphingCalculator.Proofs.Token.Tree
import GraphingCalculator.Token.Adjacency
import Mathlib.Data.List.Chain

/-!
# The grammar of expressions

An expression is a sum of products of powers of atoms.  All operators group to
the left.  An operand may follow the last number, constant or variable of a
product directly, and then the two are multiplied; only two numbers may not
stand side by side.  A minus before everything else makes the first term of the
sum a difference from zero.

The grammar says nothing about how a text is read.  The passes of the
compilation are measured against it in the files after this one.
-/

namespace GraphingCalculator

/-- The levels of the grammar, the loosest first. -/
inductive Level
  | sum
  | product
  | power
  | atom
  deriving DecidableEq

namespace Level

/-- The level of the operands of a level. -/
def tighter : Level → Level
  | sum => product
  | product => power
  | power | atom => atom

/-- The operators between the operands of a level. -/
def operators : Level → List Operator
  | sum => [.plus, .minus]
  | product => [.times, .divide]
  | power => [.power]
  | atom => []

end Level

/-- Tokens that are an expression of a level, with the tree that they stand
for. -/
inductive Derives : Level → List Token → Token.Tree → Prop
  | operand {token : Token} (isAtom : token.kind.isAtom = true) :
      Derives .atom [token] (.leaf token)
  | group {opening closing : Token} {tokens : List Token} {tree : Token.Tree}
      (isOpening : opening.kind = .openParen)
      (isClosing : closing.kind = .closeParen)
      (inside : Derives .sum tokens tree) :
      Derives .atom (opening :: (tokens ++ [closing])) tree
  | application {function opening closing : Token} {tokens : List Token}
      {tree : Token.Tree} (isFunction : function.kind = .function)
      (isOpening : opening.kind = .openParen)
      (isClosing : closing.kind = .closeParen)
      (inside : Derives .sum tokens tree) :
      Derives .atom (function :: opening :: (tokens ++ [closing]))
        (.application function tree)
  | tighter {level : Level} {tokens : List Token} {tree : Token.Tree}
      (operand : Derives level.tighter tokens tree) :
      Derives level tokens tree
  | operation {level : Level} {token : Token} {operator : Operator}
      {leftTokens rightTokens : List Token} {left right : Token.Tree}
      (first : Derives level leftTokens left)
      (isOperator : token.kind = .operator operator)
      (isOfLevel : operator ∈ level.operators)
      (second : Derives level.tighter rightTokens right) :
      Derives level (leftTokens ++ token :: rightTokens)
        (.operation token left right)
  | juxtaposition {last next : Token} {leftTokens rightTokens : List Token}
      {left right : Token.Tree}
      (first : Derives .product leftTokens left)
      (isLast : leftTokens.getLast? = some last)
      (isAtom : last.kind.isAtom = true)
      (isNext : rightTokens.head? = some next)
      (notNumbers : ¬ (last.kind = .number ∧ next.kind = .number))
      (second : Derives .power rightTokens right) :
      Derives .product (leftTokens ++ rightTokens)
        (.operation (.impliedProduct next.position) left right)

/-- Tokens that are a whole expression, which a minus may precede. -/
inductive DerivesWhole : List Token → Token.Tree → Prop
  | term {tokens : List Token} {tree : Token.Tree}
      (first : Derives .product tokens tree) : DerivesWhole tokens tree
  | negated {minus : Token} {tokens : List Token} {tree : Token.Tree}
      (isMinus : minus.kind = .operator .minus)
      (first : Derives .product tokens tree) :
      DerivesWhole (minus :: tokens)
        (.operation minus (.leaf (.impliedZero minus.position)) tree)
  | operation {token : Token} {operator : Operator}
      {leftTokens rightTokens : List Token} {left right : Token.Tree}
      (first : DerivesWhole leftTokens left)
      (isOperator : token.kind = .operator operator)
      (isOfLevel : operator ∈ Level.sum.operators)
      (second : Derives .product rightTokens right) :
      DerivesWhole (leftTokens ++ token :: rightTokens)
        (.operation token left right)

namespace Token

/-- Check whether a token of this kind can be the last one of an operand. -/
def Kind.endsOperand (kind : Kind) : Bool :=
  kind.isAtom || kind = .closeParen

theorem Kind.isOperator_of_endsOperand {kind : Kind}
    (ends : kind.endsOperand = true) : kind.isOperator = false := by
  cases kind with
  | operator => contradiction
  | _ => rfl

theorem Kind.isOperator_of_beginsOperand {kind : Kind}
    (begins : kind.beginsOperand = true) : kind.isOperator = false := by
  cases kind with
  | operator => contradiction
  | _ => rfl

/-- Two tokens that may stand side by side. -/
def Fits (first second : Token) : Prop :=
  pairFault? first.kind second.kind = none

theorem checkPairs_eq_ok_iff {tokens : List Token} :
    checkPairs tokens = .ok () ↔ tokens.IsChain Fits := by
  induction tokens with
  | nil => simp [checkPairs]
  | cons first rest ih =>
      cases rest with
      | nil => simp [checkPairs]
      | cons second rest =>
          rw [List.isChain_cons_cons, ← ih, checkPairs, Fits]
          cases pairFault? first.kind second.kind <;> simp

variable {first second : Token}

theorem fits_of_isOperator {operator : Operator}
    (isOperator : first.kind = .operator operator)
    (begins : second.kind.beginsOperand = true) : first.Fits second := by
  rw [Fits, isOperator]
  cases isKind : second.kind <;> simp_all [pairFault?, Kind.beginsOperand]

theorem fits_operator {operator : Operator}
    (ends : first.kind.endsOperand = true)
    (isOperator : second.kind = .operator operator) : first.Fits second := by
  rw [Fits, isOperator]
  cases isKind : first.kind <;>
    simp_all [pairFault?, Kind.endsOperand, Kind.isAtom, Kind.beginsOperand]

theorem fits_of_isOpening (isOpening : first.kind = .openParen)
    (begins : second.kind.beginsOperand = true) : first.Fits second := by
  rw [Fits, isOpening]
  cases isKind : second.kind <;> simp_all [pairFault?, Kind.beginsOperand]

theorem fits_closing (ends : first.kind.endsOperand = true)
    (isClosing : second.kind = .closeParen) : first.Fits second := by
  rw [Fits, isClosing]
  cases isKind : first.kind <;>
    simp_all [pairFault?, Kind.endsOperand, Kind.isAtom, Kind.beginsOperand]

theorem fits_of_isFunction (isFunction : first.kind = .function)
    (isOpening : second.kind = .openParen) : first.Fits second := by
  rw [Fits, isFunction, isOpening]
  rfl

/-- Where one operand ends and another one begins, the two tokens fit exactly
if they may be multiplied without an operator. -/
theorem fits_iff_of_juxtaposed (ends : first.kind.endsOperand = true)
    (begins : second.kind.beginsOperand = true) :
    first.Fits second ↔ first.kind.isAtom = true ∧
      ¬ (first.kind = .number ∧ second.kind = .number) := by
  rw [Fits]
  cases isFirst : first.kind <;> cases isSecond : second.kind <;>
    simp_all [pairFault?, Kind.endsOperand, Kind.isAtom, Kind.beginsOperand]

end Token

namespace Derives

variable {level : Level} {tokens : List Token} {tree : Token.Tree}

/-- An operand begins with a token that can begin one. -/
theorem exists_first (derives : Derives level tokens tree) :
    ∃ first rest, tokens = first :: rest ∧
      first.kind.beginsOperand = true := by
  induction derives with
  | @operand token isAtom =>
      refine ⟨token, [], rfl, ?_⟩
      cases isKind : token.kind <;>
        simp_all [Token.Kind.isAtom, Token.Kind.beginsOperand]
  | @group opening closing tokens tree isOpening isClosing inside ih =>
      exact ⟨opening, _, rfl, by rw [isOpening]; rfl⟩
  | @application function opening closing tokens tree isFunction =>
      exact ⟨function, _, rfl, by rw [isFunction]; rfl⟩
  | tighter operand ih => exact ih
  | operation first isOperator isOfLevel second firstIH secondIH =>
      obtain ⟨token, rest, rfl, begins⟩ := firstIH
      exact ⟨token, _, rfl, begins⟩
  | juxtaposition first isLast isAtom isNext notNumbers second firstIH =>
      obtain ⟨token, rest, rfl, begins⟩ := firstIH
      exact ⟨token, _, rfl, begins⟩

/-- An operand ends with a token that can end one. -/
theorem exists_last (derives : Derives level tokens tree) :
    ∃ last, tokens.getLast? = some last ∧ last.kind.endsOperand = true := by
  induction derives with
  | @operand token isAtom =>
      exact ⟨token, rfl, by simp [Token.Kind.endsOperand, isAtom]⟩
  | @group opening closing tokens tree isOpening isClosing inside ih =>
      exact ⟨closing, List.getLast?_concat (l := opening :: tokens),
        by simp [Token.Kind.endsOperand, isClosing]⟩
  | @application function opening closing tokens tree isFunction isOpening
      isClosing =>
      exact ⟨closing, List.getLast?_concat (l := function :: opening :: tokens),
        by simp [Token.Kind.endsOperand, isClosing]⟩
  | tighter operand ih => exact ih
  | operation first isOperator isOfLevel second firstIH secondIH =>
      obtain ⟨last, isLast, ends⟩ := secondIH
      refine ⟨last, ?_, ends⟩
      simp [List.getLast?_append, List.getLast?_cons, isLast]
  | juxtaposition first isLast isAtom isNext notNumbers second firstIH
      secondIH =>
      obtain ⟨last, isLast, ends⟩ := secondIH
      exact ⟨last, by simp [List.getLast?_append, isLast], ends⟩

/-- Parentheses fit around an operand. -/
theorem isChain_parentheses {opening closing : Token}
    (inside : Derives level tokens tree)
    (insideFits : tokens.IsChain Token.Fits)
    (isOpening : opening.kind = .openParen)
    (isClosing : closing.kind = .closeParen) :
    (opening :: (tokens ++ [closing])).IsChain Token.Fits := by
  obtain ⟨first, rest, rfl, begins⟩ := inside.exists_first
  obtain ⟨last, isLast, ends⟩ := inside.exists_last
  refine List.isChain_cons_cons.mpr
    ⟨Token.fits_of_isOpening isOpening begins, ?_⟩
  refine insideFits.append (.singleton _) ?_
  intro before isBefore token isToken
  cases isToken
  rw [isLast] at isBefore
  cases isBefore
  exact Token.fits_closing ends isClosing

/-- Neighbours in an operand fit. -/
theorem isChain (derives : Derives level tokens tree) :
    tokens.IsChain Token.Fits := by
  induction derives with
  | operand isAtom => exact .singleton _
  | group isOpening isClosing inside ih =>
      exact inside.isChain_parentheses ih isOpening isClosing
  | application isFunction isOpening isClosing inside ih =>
      exact List.isChain_cons_cons.mpr
        ⟨Token.fits_of_isFunction isFunction isOpening,
          inside.isChain_parentheses ih isOpening isClosing⟩
  | tighter operand ih => exact ih
  | operation first isOperator isOfLevel second firstIH secondIH =>
      obtain ⟨last, isLast, ends⟩ := first.exists_last
      obtain ⟨next, rest, rfl, begins⟩ := second.exists_first
      refine firstIH.append (List.isChain_cons_cons.mpr
        ⟨Token.fits_of_isOperator isOperator begins, secondIH⟩) ?_
      intro before isBefore token isToken
      cases isToken
      rw [isLast] at isBefore
      cases isBefore
      exact Token.fits_operator ends isOperator
  | juxtaposition first isLast isAtom isNext notNumbers second firstIH
      secondIH =>
      obtain ⟨next, rest, rfl, begins⟩ := second.exists_first
      cases isNext
      refine firstIH.append secondIH ?_
      intro before isBefore token isToken
      cases isToken
      rw [isLast] at isBefore
      cases isBefore
      refine (Token.fits_iff_of_juxtaposed ?_ begins).mpr ⟨isAtom, notNumbers⟩
      simp [Token.Kind.endsOperand, isAtom]

end Derives

namespace DerivesWhole

variable {tokens : List Token} {tree : Token.Tree}

/-- An expression begins like an operand, or with a minus. -/
theorem exists_first (derives : DerivesWhole tokens tree) :
    ∃ first rest, tokens = first :: rest ∧
      (first.kind.beginsOperand = true ∨
        first.kind = .operator .minus) := by
  induction derives with
  | term first =>
      obtain ⟨token, rest, rfl, begins⟩ := first.exists_first
      exact ⟨token, rest, rfl, .inl begins⟩
  | negated isMinus first => exact ⟨_, _, rfl, .inr isMinus⟩
  | operation first isOperator isOfLevel second ih =>
      obtain ⟨token, rest, rfl, begins⟩ := ih
      exact ⟨token, _, rfl, begins⟩

theorem exists_last (derives : DerivesWhole tokens tree) :
    ∃ last, tokens.getLast? = some last ∧ last.kind.endsOperand = true := by
  cases derives with
  | term first => exact first.exists_last
  | negated isMinus first =>
      obtain ⟨last, isLast, ends⟩ := first.exists_last
      exact ⟨last, by simp [List.getLast?_cons, isLast], ends⟩
  | operation first isOperator isOfLevel second =>
      obtain ⟨last, isLast, ends⟩ := second.exists_last
      refine ⟨last, ?_, ends⟩
      simp [List.getLast?_append, List.getLast?_cons, isLast]

theorem isChain (derives : DerivesWhole tokens tree) :
    tokens.IsChain Token.Fits := by
  induction derives with
  | term first => exact first.isChain
  | negated isMinus first =>
      obtain ⟨next, rest, rfl, begins⟩ := first.exists_first
      exact List.isChain_cons_cons.mpr
        ⟨Token.fits_of_isOperator isMinus begins, first.isChain⟩
  | operation first isOperator isOfLevel second ih =>
      obtain ⟨last, isLast, ends⟩ := first.exists_last
      obtain ⟨next, rest, rfl, begins⟩ := second.exists_first
      refine ih.append (List.isChain_cons_cons.mpr
        ⟨Token.fits_of_isOperator isOperator begins, second.isChain⟩) ?_
      intro before isBefore token isToken
      cases isToken
      rw [isLast] at isBefore
      cases isBefore
      exact Token.fits_operator ends isOperator

end DerivesWhole
end GraphingCalculator
