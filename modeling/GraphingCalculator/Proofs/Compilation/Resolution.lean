import GraphingCalculator.Proofs.Compilation.References
import GraphingCalculator.Proofs.Environment.Evaluation

/-!
# Names are resolved by kind

A token is made a constant or a function by what its name stands for when the
source is read, and the tree keeps that kind.  A compiled expression therefore
takes the constants of the user for constants and the functions for functions.
Folding and renaming keep it so.
-/

namespace GraphingCalculator
namespace Expression

/-- Each name of an expression has a meaning of the kind that the expression
takes it for. -/
def IsResolved (meaning? : Text → Option Meaning) : Expression → Prop
  | freeVariable | value _ => True
  | constant name => ∃ value, meaning? name = some (.constant value)
  | binary _ left right => left.IsResolved meaning? ∧ right.IsResolved meaning?
  | apply _ argument | derivative argument => argument.IsResolved meaning?
  | call name argument =>
      (∃ body, meaning? name = some (.function body)) ∧
        argument.IsResolved meaning?

variable {first second : Text → Option Meaning} {expression : Expression}

theorem IsResolved.fold (resolved : expression.IsResolved first) :
    expression.fold.IsResolved first := by
  induction expression with
  | freeVariable | value | constant => exact resolved
  | binary operator left right leftIH rightIH =>
      rw [fold_binary]
      rcases foldBinary_eq operator left.fold right.fold with same | folded
      · rw [same]
        exact ⟨leftIH resolved.1, rightIH resolved.2⟩
      · obtain ⟨first, second, result, -, -, -, isValue⟩ := folded
        rw [isValue]
        trivial
  | apply function argument ih =>
      rw [fold_apply]
      rcases foldApply_eq function argument.fold with same | folded
      · rw [same]
        exact ih resolved
      · obtain ⟨operand, result, -, -, isValue⟩ := folded
        rw [isValue]
        trivial
  | call name argument ih => exact ⟨resolved.1, ih resolved.2⟩
  | derivative operand ih => exact ih resolved

theorem IsResolved.mono (resolved : expression.IsResolved first)
    (keeps : ∀ name meaning, first name = some meaning →
      second name = some meaning) : expression.IsResolved second := by
  induction expression with
  | freeVariable | value => exact resolved
  | constant name =>
      obtain ⟨value, isMeaning⟩ := resolved
      exact ⟨value, keeps name _ isMeaning⟩
  | binary operator left right leftIH rightIH =>
      exact ⟨leftIH resolved.1, rightIH resolved.2⟩
  | apply function argument ih => exact ih resolved
  | call name argument ih =>
      obtain ⟨⟨body, isMeaning⟩, resolved⟩ := resolved
      exact ⟨⟨body, keeps name _ isMeaning⟩, ih resolved⟩
  | derivative operand ih => exact ih resolved

/-- Names stay resolved when each meaning is found under the new name, with its
references turned. -/
theorem IsResolved.rename {old new : Text}
    (moves : ∀ name meaning, first name = some meaning →
      second (renameName old new name) = some (meaning.rename old new))
    (resolved : expression.IsResolved first) :
    (expression.rename old new).IsResolved second := by
  induction expression with
  | freeVariable | value => exact resolved
  | constant name =>
      obtain ⟨value, isMeaning⟩ := resolved
      exact ⟨value, moves name _ isMeaning⟩
  | binary operator left right leftIH rightIH =>
      exact ⟨leftIH resolved.1, rightIH resolved.2⟩
  | apply function argument ih => exact ih resolved
  | call name argument ih =>
      obtain ⟨⟨body, isMeaning⟩, resolved⟩ := resolved
      exact ⟨⟨body.rename old new, moves name _ isMeaning⟩, ih resolved⟩
  | derivative operand ih => exact ih resolved

end Expression

namespace Environment

variable {environment : Environment} {name : Text}

/-- A constant that is not built in is one of the user. -/
theorem exists_constant_of_classify
    (notBuiltin : BuiltinConstant.ofName? name = none)
    (isConstant : environment.classify name = some .constant) :
    ∃ value, environment.meaning? name = some (.constant value) := by
  cases builtin : builtinDefinition? name with
  | none =>
      rw [classify_of_not_builtin builtin, Option.map_eq_some_iff]
        at isConstant
      obtain ⟨meaning, isMeaning, isKind⟩ := isConstant
      cases meaning with
      | constant value => exact ⟨value, isMeaning⟩
      | function body => contradiction
  | some definition =>
      rw [classify, definition?_of_builtin builtin] at isConstant
      rw [builtinDefinition?, notBuiltin] at builtin
      obtain ⟨function, -, rfl⟩ := Option.map_eq_some_iff.mp builtin
      cases isConstant

/-- A function that is not built in is one of the user. -/
theorem exists_function_of_classify
    (notBuiltin : BuiltinFunction.ofName? name = none)
    (isFunction : environment.classify name = some .function) :
    ∃ body, environment.meaning? name = some (.function body) := by
  cases builtin : builtinDefinition? name with
  | none =>
      rw [classify_of_not_builtin builtin, Option.map_eq_some_iff]
        at isFunction
      obtain ⟨meaning, isMeaning, isKind⟩ := isFunction
      cases meaning with
      | function body => exact ⟨body, isMeaning⟩
      | constant value => contradiction
  | some definition =>
      rw [classify, definition?_of_builtin builtin] at isFunction
      rw [builtinDefinition?, notBuiltin] at builtin
      split at builtin
      · cases builtin
        cases isFunction
      · contradiction

end Environment

/-- The tokens that are looked up have the kinds of their names, and so the
expression of a tree has its names resolved. -/
theorem Token.Tree.isResolved {environment : Environment} {tree : Token.Tree}
    {expression : Expression} (stands : tree.expression? = some expression)
    (known : ∀ token ∈ tree.writing, ∀ name, token.RefersTo name →
      environment.classify name = some token.kind) :
    expression.IsResolved environment.meaning? := by
  induction tree generalizing expression with
  | leaf token =>
      have isKnown := known token (by simp [writing]) token.text
      rw [expression?, leafExpression?] at stands
      split at stands
      next =>
          obtain ⟨number, -, rfl⟩ := Option.map_eq_some_iff.mp stands
          trivial
      next =>
          cases stands
          trivial
      next isConstant =>
          cases stands
          unfold Expression.ofConstantName
          split
          next => trivial
          next notBuiltin =>
              have isKind := isKnown ⟨rfl, .inl isConstant⟩
              rw [isConstant] at isKind
              exact Environment.exists_constant_of_classify notBuiltin isKind
      next => contradiction
  | operation token left right leftIH rightIH =>
      obtain ⟨operator, first, second, -, isFirst, isSecond, rfl⟩ :=
        expression?_operation_eq_some_iff.mp stands
      exact ⟨leftIH isFirst fun token member =>
          known token (by simp [writing, member]),
        rightIH isSecond fun token member =>
          known token (by simp [writing, member])⟩
  | application token argument ih =>
      obtain ⟨isFunction, operand, isOperand, rfl⟩ :=
        expression?_application_eq_some_iff.mp stands
      have resolved := ih isOperand fun token member =>
        known token (by simp [writing, member])
      have isKnown := known token (by simp [writing]) token.text
      unfold Expression.ofFunctionName
      split
      next => exact resolved
      next notDerivative =>
          split
          next => exact resolved
          next notBuiltin =>
              have isKind := isKnown ⟨rfl, .inr ⟨isFunction, notDerivative⟩⟩
              rw [isFunction] at isKind
              exact ⟨Environment.exists_function_of_classify notBuiltin isKind,
                resolved⟩

/-- A compiled expression takes the names of the user for what they are. -/
theorem Environment.isResolved_compile {environment : Environment}
    {source : Text} {formula : Formula}
    (compiles : environment.compile source = .ok formula) :
    formula.expression.IsResolved environment.meaning? := by
  obtain ⟨tokens, ordered, expression, reads, -, -, converts, builds, rfl⟩ :=
    compile_eq_ok_iff.mp compiles
  obtain ⟨tree, raw, rfl, stands, -, rfl⟩ :=
    Expression.ofPostfix_eq_ok_iff.mp builds
  apply Expression.IsResolved.fold
  apply Token.Tree.isResolved stands
  intro token inWriting name isReference
  exact (Source.exists_identifier_of_refersTo
    (Source.tokenize_eq_ok_iff.mp reads).2.2
    ((Token.mem_toPostfix converts isReference.isWord).mp inWriting)
    isReference).2

end GraphingCalculator
