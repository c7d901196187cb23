import GraphingCalculator.Expression.Building
import GraphingCalculator.Proofs.Sequence

/-!
# Trees of tokens

A tree of tokens has operands at its leaves, and an operator or a function at
every other node.  Writing each node after its operands gives postfix tokens,
and building an expression from postfix tokens is the inverse: it succeeds on
the writings of trees that are not nested too deeply, and on nothing else.
-/

namespace GraphingCalculator

/-- A token together with the operands that it applies to. -/
inductive Token.Tree
  | leaf (token : Token)
  | operation (token : Token) (left right : Token.Tree)
  | application (token : Token) (argument : Token.Tree)

namespace Token.Tree

/-- The tokens of a tree, each node after its operands. -/
def writing : Token.Tree → List Token
  | leaf token => [token]
  | operation token left right => left.writing ++ right.writing ++ [token]
  | application token argument => argument.writing ++ [token]

theorem reverse_writing_leaf (token : Token) (before : List Token) :
    (leaf token).writing.reverse ++ before = token :: before :=
  rfl

theorem reverse_writing_operation (token : Token) (left right : Token.Tree)
    (before : List Token) :
    (operation token left right).writing.reverse ++ before =
      token :: (right.writing.reverse ++ (left.writing.reverse ++ before)) := by
  simp [writing]

theorem reverse_writing_application (token : Token) (argument : Token.Tree)
    (before : List Token) :
    (application token argument).writing.reverse ++ before =
      token :: (argument.writing.reverse ++ before) := by
  simp [writing]

/-- The number of functions applied inside each other. -/
def nesting : Token.Tree → Nat
  | leaf _ => 0
  | operation _ left right => max left.nesting right.nesting
  | application _ argument => argument.nesting + 1

/-- The operand that a single token stands for. -/
def leafExpression? (token : Token) : Option Expression :=
  match token.kind with
  | .number => (Numeral.read? token.text).map .value
  | .freeVariable => some .freeVariable
  | .constant => some (Expression.ofConstantName token.text)
  | _ => none

/-- The expression that a tree stands for, if every node has the kind that its
place asks for. -/
def expression? : Token.Tree → Option Expression
  | leaf token => leafExpression? token
  | operation token left right =>
      match token.kind, left.expression?, right.expression? with
      | .operator operator, some first, some second =>
          some (.binary operator first second)
      | _, _, _ => none
  | application token argument =>
      if token.kind = .function then
        argument.expression?.map (Expression.ofFunctionName token.text)
      else none

theorem expression?_operation_eq_some_iff {token : Token}
    {left right : Token.Tree} {expression : Expression} :
    (operation token left right).expression? = some expression ↔
      ∃ operator first second, token.kind = .operator operator ∧
        left.expression? = some first ∧ right.expression? = some second ∧
          expression = .binary operator first second := by
  rw [expression?]
  constructor
  · intro stands
    split at stands
    next operator first second isOperator isFirst isSecond =>
        cases stands
        exact ⟨operator, first, second, isOperator, isFirst, isSecond, rfl⟩
    next => contradiction
  · rintro ⟨operator, first, second, isOperator, isFirst, isSecond, rfl⟩
    rw [isOperator, isFirst, isSecond]

theorem expression?_application_eq_some_iff {token : Token}
    {argument : Token.Tree} {expression : Expression} :
    (application token argument).expression? = some expression ↔
      token.kind = .function ∧ ∃ operand,
        argument.expression? = some operand ∧
          Expression.ofFunctionName token.text operand = expression := by
  rw [expression?, Option.ite_none_right_eq_some, Option.map_eq_some_iff]

end Token.Tree

namespace Expression

open Token

variable {maxDepth : Nat}

/-- What is read from the end of postfix tokens is the writing of a tree. -/
theorem exists_tree_of_build {depth position : Nat} {reversed : List Token}
    {built : Expression ×
      { rest : List Token // rest.length < reversed.length }}
    (builds : build maxDepth depth position reversed = .ok built) :
    ∃ tree : Token.Tree, tree.expression? = some built.1 ∧
      reversed = tree.writing.reverse ++ built.2.val ∧
        depth + tree.nesting ≤ maxDepth := by
  unfold build at builds
  split at builds
  · contradiction
  next shallow =>
      have fits : depth ≤ maxDepth := by omega
      split at builds
      · contradiction
      next token rest =>
          split at builds
          next isNumber =>
              split at builds
              next number isNumeral =>
                  cases builds
                  exact ⟨.leaf token,
                    by simp [Tree.expression?, Tree.leafExpression?, isNumber,
                      isNumeral],
                    rfl, fits⟩
              next => contradiction
          next isVariable =>
              cases builds
              exact ⟨.leaf token,
                by simp [Tree.expression?, Tree.leafExpression?, isVariable],
                rfl, fits⟩
          next isConstant =>
              cases builds
              exact ⟨.leaf token,
                by simp [Tree.expression?, Tree.leafExpression?, isConstant],
                rfl, fits⟩
          next operator isOperator =>
              obtain ⟨⟨right, beforeRight, rightShorter⟩, buildsRight,
                  builds⟩ :=
                bind_eq_ok_iff.mp builds
              obtain ⟨⟨left, beforeLeft, leftShorter⟩, buildsLeft, builds⟩ :=
                bind_eq_ok_iff.mp builds
              cases builds
              obtain ⟨second, isSecond, rightWriting, rightFits⟩ :=
                exists_tree_of_build buildsRight
              obtain ⟨first, isFirst, leftWriting, leftFits⟩ :=
                exists_tree_of_build buildsLeft
              refine ⟨.operation token first second,
                Tree.expression?_operation_eq_some_iff.mpr
                  ⟨operator, left, right, isOperator, isFirst, isSecond, rfl⟩,
                ?_, ?_⟩
              · dsimp only at rightWriting leftWriting
                simp [Tree.writing, rightWriting, leftWriting]
              · rw [Tree.nesting]
                omega
          next isFunction =>
              obtain ⟨⟨argument, beforeArgument, argumentShorter⟩,
                  buildsArgument, builds⟩ := bind_eq_ok_iff.mp builds
              cases builds
              obtain ⟨operand, isOperand, argumentWriting, argumentFits⟩ :=
                exists_tree_of_build buildsArgument
              refine ⟨.application token operand,
                Tree.expression?_application_eq_some_iff.mpr
                  ⟨isFunction, argument, isOperand, rfl⟩,
                ?_, ?_⟩
              · dsimp only at argumentWriting
                simp [Tree.writing, argumentWriting]
              · rw [Tree.nesting]
                omega
          all_goals contradiction
termination_by reversed.length
decreasing_by
  all_goals
    subst_vars
    simp only [List.length_cons] at *
    omega

/-- The writing of a tree is read back as the tree, whatever stands before
it. -/
theorem build_writing {tree : Token.Tree} {expression : Expression}
    (stands : tree.expression? = some expression) {depth : Nat}
    (fits : depth + tree.nesting ≤ maxDepth) (position : Nat)
    (before : List Token) :
    ∃ shorter, build maxDepth depth position
        (tree.writing.reverse ++ before) =
      .ok (expression, ⟨before, shorter⟩) := by
  induction tree generalizing expression depth position before with
  | leaf token =>
      have shallow : ¬ maxDepth < depth := by omega
      rw [Tree.reverse_writing_leaf]
      refine ⟨by simp, ?_⟩
      rw [Tree.expression?, Tree.leafExpression?] at stands
      unfold build
      split at stands
      next isNumber =>
          obtain ⟨number, isNumeral, rfl⟩ := Option.map_eq_some_iff.mp stands
          simp [shallow, isNumber, isNumeral]
      next isVariable =>
          cases stands
          simp [shallow, isVariable]
      next isConstant =>
          cases stands
          simp [shallow, isConstant]
      next => contradiction
  | operation token left right leftIH rightIH =>
      obtain ⟨operator, first, second, isOperator, isFirst, isSecond, rfl⟩ :=
        Tree.expression?_operation_eq_some_iff.mp stands
      rw [Tree.nesting] at fits
      have shallow : ¬ maxDepth < depth := by omega
      obtain ⟨leftShorter, buildsLeft⟩ :=
        leftIH isFirst (show depth + left.nesting ≤ maxDepth by omega)
          token.position before
      obtain ⟨rightShorter, buildsRight⟩ :=
        rightIH isSecond (show depth + right.nesting ≤ maxDepth by omega)
          token.position (left.writing.reverse ++ before)
      rw [Tree.reverse_writing_operation]
      refine ⟨by rw [List.length_cons, List.length_append]; omega, ?_⟩
      unfold build
      simp only [shallow, if_false, isOperator, buildsRight, buildsLeft,
        ok_bind]
      rfl
  | application token argument ih =>
      obtain ⟨isFunction, operand, isOperand, rfl⟩ :=
        Tree.expression?_application_eq_some_iff.mp stands
      rw [Tree.nesting] at fits
      have shallow : ¬ maxDepth < depth := by omega
      obtain ⟨shorter, builds⟩ :=
        ih isOperand (show depth + 1 + argument.nesting ≤ maxDepth by omega)
          token.position before
      rw [Tree.reverse_writing_application]
      refine ⟨by rw [List.length_cons, List.length_append]; omega, ?_⟩
      unfold build
      simp only [shallow, if_false, isFunction, builds, ok_bind]
      rfl

/-- Postfix tokens are an expression exactly when they are the writing of a
tree, whose expression is then folded. -/
theorem ofPostfix_eq_ok_iff {tokens : List Token} {expression : Expression} :
    ofPostfix maxDepth tokens = .ok expression ↔
      ∃ tree raw, Tree.writing tree = tokens ∧ tree.expression? = some raw ∧
        tree.nesting ≤ maxDepth ∧ expression = raw.fold := by
  rw [ofPostfix]
  constructor
  · intro builds
    obtain ⟨⟨raw, leftover, shorter⟩, buildsRaw, builds⟩ :=
      bind_eq_ok_iff.mp builds
    obtain ⟨tree, isRaw, isWriting, fits⟩ := exists_tree_of_build buildsRaw
    dsimp only at builds isWriting
    split at builds
    · cases builds
      refine ⟨tree, raw, ?_, isRaw, by omega, rfl⟩
      rw [List.append_nil] at isWriting
      exact (List.reverse_inj.mp isWriting).symm
    · contradiction
  · rintro ⟨tree, raw, rfl, isRaw, fits, rfl⟩
    -- The type of what `build` returns depends on the tokens it is given.
    have nothingBefore : tree.writing.reverse = tree.writing.reverse ++ [] :=
      (List.append_nil _).symm
    rw [nothingBefore]
    obtain ⟨shorter, builds⟩ := build_writing isRaw
      (show 0 + tree.nesting ≤ maxDepth by omega)
      (((tree.writing.reverse ++ []).head?.map Token.position).getD 0) []
    simp only [builds, ok_bind]
    rfl

end Expression
end GraphingCalculator
