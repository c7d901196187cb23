import GraphingCalculator.Proofs.Grammar.Meaning
import GraphingCalculator.Proofs.Token.Conservation

/-!
# Building inverts postorder

Postfix tokens are the writing of at most one tree.  They are the writing of one
exactly when the operands can be counted: each token finds the operands that it
takes, and a single operand is left in the end.  So building an expression fails
on everything else, whether an operand is missing or left over, or a parenthesis
stands among the tokens.
-/

namespace GraphingCalculator

namespace Token

/-- The number of operands that a token of a kind takes.  No operands make a
parenthesis one. -/
def Kind.arity? : Kind → Option Nat
  | number | freeVariable | constant => some 0
  | function => some 1
  | operator _ => some 2
  | openParen | closeParen => none

/-- The number of complete operands after one more token, which takes the last
of them and is an operand itself. -/
def complete? (operands : Nat) (token : Token) : Option Nat := do
  let arity ← token.kind.arity?
  if arity ≤ operands then some (operands - arity + 1) else none

/-- The number of complete operands after postfix tokens, unless one was missing
on the way. -/
def countOperands? (tokens : List Token) : Option Nat :=
  tokens.foldlM complete? 0

/-- A number with a value, if a token is one. -/
def IsLegible (token : Token) : Prop :=
  token.kind = .number → (Numeral.read? token.text).isSome = true

namespace Tree

/-- A tree with a token of the right kind at each place, and with a value for
each of its numbers. -/
def IsFormed : Token.Tree → Prop
  | leaf token => token.kind.isAtom = true ∧ token.IsLegible
  | operation token left right =>
      token.kind.isOperator = true ∧ left.IsFormed ∧ right.IsFormed
  | application token argument => token.kind = .function ∧ argument.IsFormed

theorem leafExpression?_isSome_iff {token : Token} :
    (∃ expression, leafExpression? token = some expression) ↔
      token.kind.isAtom = true ∧ token.IsLegible := by
  rw [leafExpression?, IsLegible, ← Option.isSome_iff_exists]
  cases token.kind <;> simp [Kind.isAtom]

/-- The trees that stand for an expression are those that are formed. -/
theorem isFormed_iff {tree : Token.Tree} :
    tree.IsFormed ↔ ∃ expression, tree.expression? = some expression := by
  induction tree with
  | leaf token => exact leafExpression?_isSome_iff.symm
  | operation token left right leftIH rightIH =>
      rw [IsFormed, leftIH, rightIH]
      constructor
      · rintro ⟨isOperator, ⟨first, isFirst⟩, second, isSecond⟩
        cases isKind : token.kind with
        | operator operator =>
            exact ⟨_, expression?_operation_eq_some_iff.mpr
              ⟨operator, first, second, isKind, isFirst, isSecond, rfl⟩⟩
        | _ =>
            rw [isKind] at isOperator
            contradiction
      · rintro ⟨expression, stands⟩
        obtain ⟨operator, first, second, isKind, isFirst, isSecond, -⟩ :=
          expression?_operation_eq_some_iff.mp stands
        exact ⟨by rw [isKind]; rfl, ⟨first, isFirst⟩, second, isSecond⟩
  | application token argument ih =>
      rw [IsFormed, ih]
      constructor
      · rintro ⟨isFunction, operand, isOperand⟩
        exact ⟨_, expression?_application_eq_some_iff.mpr
          ⟨isFunction, operand, isOperand, rfl⟩⟩
      · rintro ⟨expression, stands⟩
        obtain ⟨isFunction, operand, isOperand, -⟩ :=
          expression?_application_eq_some_iff.mp stands
        exact ⟨isFunction, operand, isOperand⟩

theorem arity?_of_isAtom {kind : Kind} (isAtom : kind.isAtom = true) :
    kind.arity? = some 0 := by
  cases kind <;> first | rfl | contradiction

theorem arity?_of_isOperator {kind : Kind}
    (isOperator : kind.isOperator = true) : kind.arity? = some 2 := by
  cases kind <;> first | rfl | contradiction

/-- The writing of a tree is one more operand, whatever stands before it. -/
theorem foldlM_complete?_writing {tree : Token.Tree} (formed : tree.IsFormed)
    (operands : Nat) :
    tree.writing.foldlM complete? operands = some (operands + 1) := by
  induction tree generalizing operands with
  | leaf token =>
      have takesNone := arity?_of_isAtom formed.1
      simp [writing, complete?, takesNone]
  | operation token left right leftIH rightIH =>
      obtain ⟨isOperator, formedLeft, formedRight⟩ := formed
      have takesTwo := arity?_of_isOperator isOperator
      simp [writing, leftIH formedLeft, rightIH formedRight, complete?,
        takesTwo]
  | application token argument ih =>
      obtain ⟨isFunction, formedArgument⟩ := formed
      have takesOne : token.kind.arity? = some 1 := by rw [isFunction]; rfl
      simp [writing, ih formedArgument, complete?, takesOne]

theorem isLegible_of_mem_writing {tree : Token.Tree} (formed : tree.IsFormed)
    {token : Token} (member : token ∈ tree.writing) : token.IsLegible := by
  have isOther {other : Token} (notNumber : other.kind ≠ .number) :
      other.IsLegible := fun isNumber => absurd isNumber notNumber
  induction tree with
  | leaf leaf =>
      obtain rfl := List.mem_singleton.mp member
      exact formed.2
  | operation node left right leftIH rightIH =>
      obtain ⟨isOperator, formedLeft, formedRight⟩ := formed
      rw [writing, List.mem_append, List.mem_append, List.mem_singleton]
        at member
      rcases member with (inLeft | inRight) | rfl
      · exact leftIH formedLeft inLeft
      · exact rightIH formedRight inRight
      · exact isOther fun isNumber => by
          rw [isNumber] at isOperator
          contradiction
  | application node argument ih =>
      obtain ⟨isFunction, formedArgument⟩ := formed
      rw [writing, List.mem_append, List.mem_singleton] at member
      rcases member with inArgument | rfl
      · exact ih formedArgument inArgument
      · exact isOther (by rw [isFunction]; simp)

/-- A token with the operands that it takes is a tree of its own.  The trees
are given last first. -/
theorem exists_trees_of_complete? {trees : List Token.Tree}
    (formed : ∀ tree ∈ trees, tree.IsFormed) {token : Token}
    (legible : token.IsLegible) {operands : Nat}
    (completes : complete? trees.length token = some operands) :
    ∃ after : List Token.Tree, after.length = operands ∧
      (∀ tree ∈ after, tree.IsFormed) ∧
        after.reverse.flatMap writing =
          trees.reverse.flatMap writing ++ [token] := by
  obtain ⟨arity, takes, completes⟩ := Option.bind_eq_some_iff.mp completes
  obtain ⟨enough, isCount⟩ := Option.ite_none_right_eq_some.mp completes
  cases isCount
  cases isKind : token.kind with
  | openParen | closeParen =>
      rw [isKind] at takes
      contradiction
  | number | freeVariable | constant =>
      rw [isKind] at takes
      cases takes
      have isLeaf : (leaf token).IsFormed := ⟨by rw [isKind]; rfl, legible⟩
      exact ⟨leaf token :: trees, rfl,
        List.forall_mem_cons.mpr ⟨isLeaf, formed⟩, by simp [writing]⟩
  | function =>
      rw [isKind] at takes
      cases takes
      obtain ⟨argument, others, rfl⟩ :=
        List.exists_cons_of_length_pos enough
      obtain ⟨formedArgument, formedOthers⟩ := List.forall_mem_cons.mp formed
      have isApplication : (application token argument).IsFormed :=
        ⟨isKind, formedArgument⟩
      exact ⟨application token argument :: others, by simp,
        List.forall_mem_cons.mpr ⟨isApplication, formedOthers⟩,
        by simp [writing]⟩
  | operator operator =>
      rw [isKind] at takes
      cases takes
      obtain ⟨right, rest, rfl⟩ :=
        List.exists_cons_of_length_pos (Nat.zero_lt_of_lt enough)
      obtain ⟨left, others, rfl⟩ :=
        List.exists_cons_of_length_pos (Nat.le_of_succ_le_succ enough)
      obtain ⟨formedRight, formedLeft, formedOthers⟩ := by
        simpa only [List.forall_mem_cons] using formed
      have isOperation : (operation token left right).IsFormed :=
        ⟨by rw [isKind]; rfl, formedLeft, formedRight⟩
      exact ⟨operation token left right :: others, by simp,
        List.forall_mem_cons.mpr ⟨isOperation, formedOthers⟩,
        by simp [writing]⟩

/-- Tokens whose operands can be counted are the writings of that many trees,
one after the other. -/
theorem exists_trees_of_countOperands? {tokens : List Token}
    (legible : ∀ token ∈ tokens, token.IsLegible) {operands : Nat}
    (counts : countOperands? tokens = some operands) :
    ∃ trees : List Token.Tree, trees.length = operands ∧
      (∀ tree ∈ trees, tree.IsFormed) ∧
        trees.reverse.flatMap writing = tokens := by
  induction tokens using List.reverseRecOn generalizing operands with
  | nil =>
      cases counts
      exact ⟨[], rfl, by simp, rfl⟩
  | append_singleton tokens token ih =>
      rw [countOperands?, List.foldlM_append] at counts
      obtain ⟨before, countsBefore, counts⟩ :=
        Option.bind_eq_some_iff.mp counts
      obtain ⟨after, completes, ends⟩ := Option.bind_eq_some_iff.mp counts
      cases ends
      obtain ⟨trees, rfl, formed, isBefore⟩ := ih
        (fun other member => legible other (List.mem_append_left _ member))
        countsBefore
      rw [← isBefore]
      exact exists_trees_of_complete? formed (legible token (by simp))
        completes

/-- Tokens are the writing of a tree exactly when they leave one operand. -/
theorem exists_writing_iff {tokens : List Token} :
    (∃ tree : Token.Tree, tree.IsFormed ∧ tree.writing = tokens) ↔
      countOperands? tokens = some 1 ∧
        ∀ token ∈ tokens, token.IsLegible := by
  constructor
  · rintro ⟨tree, formed, rfl⟩
    exact ⟨foldlM_complete?_writing formed 0,
      fun token member => isLegible_of_mem_writing formed member⟩
  · rintro ⟨counts, legible⟩
    obtain ⟨trees, isSingle, formed, isWriting⟩ :=
      exists_trees_of_countOperands? legible counts
    obtain ⟨tree, rfl⟩ := List.length_eq_one_iff.mp isSingle
    exact ⟨tree, formed tree List.mem_cons_self, by simpa using isWriting⟩

end Tree

/-- Where a parenthesis stands, the operands cannot be counted. -/
theorem countOperands?_eq_none_of_isParenthesis {tokens : List Token}
    {token : Token} (member : token ∈ tokens)
    (isParenthesis : token.isParenthesis = true) :
    countOperands? tokens = none := by
  have takesNothing : token.kind.arity? = none := by
    rw [Token.isParenthesis, Bool.or_eq_true, decide_eq_true_eq,
      decide_eq_true_eq] at isParenthesis
    rcases isParenthesis with isOpening | isClosing
    · rw [isOpening]
      rfl
    · rw [isClosing]
      rfl
  obtain ⟨before, after, rfl⟩ := List.append_of_mem member
  rw [countOperands?, List.foldlM_append]
  cases before.foldlM complete? 0 with
  | none => rfl
  | some operands => simp [complete?, takesNothing]

end Token

namespace Expression

open Token

/-- An expression is built from postfix tokens exactly when they are the writing
of a tree that is not nested too deeply.  There is only one such tree, and the
expression is the folded one that the tree stands for.  Without a tree an
operand is missing or left over, or a number has no value; a parenthesis is
always refused. -/
theorem ofPostfix_iff_writing (maxDepth : Nat) (tokens : List Token) :
    ((∃ expression, ofPostfix maxDepth tokens = .ok expression) ↔
      ∃ tree : Token.Tree, tree.IsFormed ∧ tree.writing = tokens ∧
        tree.nesting ≤ maxDepth) ∧
    (∀ tree : Token.Tree, tree.IsFormed → tree.writing = tokens →
      (∀ other : Token.Tree, other.IsFormed → other.writing = tokens →
        other = tree) ∧
      ∃ raw, tree.expression? = some raw ∧
        (tree.nesting ≤ maxDepth →
          ofPostfix maxDepth tokens = .ok raw.fold)) ∧
    ((∃ tree : Token.Tree, tree.IsFormed ∧ tree.writing = tokens) ↔
      countOperands? tokens = some 1 ∧ ∀ token ∈ tokens, token.IsLegible) ∧
    ((countOperands? tokens ≠ some 1 ∨
        ∃ token ∈ tokens, token.isParenthesis = true) →
      ∃ error, ofPostfix maxDepth tokens = .error error) := by
  have builds (tree : Token.Tree) (formed : tree.IsFormed)
      (isWriting : tree.writing = tokens) :
      ∃ raw, tree.expression? = some raw ∧ (tree.nesting ≤ maxDepth →
        ofPostfix maxDepth tokens = .ok raw.fold) := by
    obtain ⟨raw, stands⟩ := Tree.isFormed_iff.mp formed
    exact ⟨raw, stands, fun shallow => ofPostfix_eq_ok_iff.mpr
      ⟨tree, raw, isWriting, stands, shallow, rfl⟩⟩
  have exact : (∃ expression, ofPostfix maxDepth tokens = .ok expression) ↔
      ∃ tree : Token.Tree, tree.IsFormed ∧ tree.writing = tokens ∧
        tree.nesting ≤ maxDepth := by
    constructor
    · rintro ⟨expression, isBuilt⟩
      obtain ⟨tree, raw, isWriting, stands, shallow, -⟩ :=
        ofPostfix_eq_ok_iff.mp isBuilt
      exact ⟨tree, Tree.isFormed_iff.mpr ⟨raw, stands⟩, isWriting, shallow⟩
    · rintro ⟨tree, formed, isWriting, shallow⟩
      obtain ⟨raw, -, isBuilt⟩ := builds tree formed isWriting
      exact ⟨raw.fold, isBuilt shallow⟩
  refine ⟨exact, fun tree formed isWriting => ⟨fun other otherFormed
    isOther => ?_, builds tree formed isWriting⟩, Tree.exists_writing_iff,
    fun illFormed => ?_⟩
  · obtain ⟨raw, stands⟩ := Tree.isFormed_iff.mp formed
    obtain ⟨otherRaw, otherStands⟩ := Tree.isFormed_iff.mp otherFormed
    exact Tree.writing_inj otherStands stands (isOther.trans isWriting.symm)
  · have notCounted : countOperands? tokens ≠ some 1 := by
      rcases illFormed with notSingle | ⟨token, member, isParenthesis⟩
      · exact notSingle
      · rw [countOperands?_eq_none_of_isParenthesis member isParenthesis]
        simp
    cases result : ofPostfix maxDepth tokens with
    | error error => exact ⟨error, rfl⟩
    | ok expression =>
        obtain ⟨tree, formed, isWriting, -⟩ := exact.mp ⟨expression, result⟩
        exact absurd (Tree.exists_writing_iff.mp ⟨tree, formed, isWriting⟩).1
          notCounted

/-- A number is left over before another one. -/
theorem ofPostfix_iff_writing_leftover :
    let tokens : List Token := [⟨.number, ['1'], 0⟩, ⟨.number, ['2'], 2⟩]
    countOperands? tokens = some 2 ∧
      ∃ error, ofPostfix 64 tokens = .error error := by
  intro tokens
  have counts : countOperands? tokens = some 2 := rfl
  exact ⟨counts, (ofPostfix_iff_writing 64 tokens).2.2.2
    (.inl (by rw [counts]; simp))⟩

end Expression
end GraphingCalculator
