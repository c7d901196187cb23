import GraphingCalculator.Proofs.Compilation.References
import GraphingCalculator.Proofs.Environment.Evaluation

/-!
# Dependencies in a source and in its expression

A definition depends on other ones in two ways: its source mentions them, and
its expression refers to them.  The first is read off the segments, mistakes and
all; the second is found in the folded tree.  For a source that compiles both
say the same about every name of the user, and whether the free variable is read
can be told from the tokens.
-/

namespace GraphingCalculator

theorem exists_mem_identifiers_iff {source name : Text} :
    (∃ position, (position, name) ∈ identifiers source) ↔
      mentions source name = true := by
  simp [mentions]

namespace Environment

variable {environment : Environment} {source name : Text} {formula : Formula}

/-- The names of the user that a source mentions are looked up. -/
theorem exists_refersTo_of_mentions {tokens : List Token}
    (reads : environment.tokenize source = .ok tokens)
    (notBuiltin : builtinDefinition? name = none)
    (mentioned : mentions source name = true) :
    ∃ token ∈ tokens, token.RefersTo name := by
  obtain ⟨isName, token, member, isText, known⟩ :=
    Source.exists_token_of_mentions (Source.tokenize_eq_ok_iff.mp reads).2.2
      mentioned
  have notDerivative : name ≠ derivativeName := by
    rintro rfl
    exact absurd isName (by decide)
  rw [classify_of_not_builtin notBuiltin, Option.map_eq_some_iff] at known
  obtain ⟨meaning, -, isKind⟩ := known
  refine ⟨token, member, isText, ?_⟩
  cases meaning with
  | constant value => exact .inl isKind.symm
  | function expression => exact .inr ⟨isKind.symm, notDerivative⟩

/-- A compiled formula refers to every name of the user that its source
mentions. -/
theorem references_of_mentions_compile
    (compiles : environment.compile source = .ok formula)
    (notBuiltin : builtinDefinition? name = none)
    (mentioned : mentions source name = true) :
    formula.references name = true := by
  obtain ⟨tokens, ordered, expression, reads, -, -, converts, builds, rfl⟩ :=
    compile_eq_ok_iff.mp compiles
  obtain ⟨tree, raw, rfl, stands, -, rfl⟩ :=
    Expression.ofPostfix_eq_ok_iff.mp builds
  obtain ⟨token, member, isReference⟩ :=
    exists_refersTo_of_mentions reads notBuiltin mentioned
  have inWriting := (Token.mem_toPostfix converts isReference.isWord).mpr member
  rw [Formula.references, Expression.references_fold]
  exact Token.Tree.references_of_mem_writing notBuiltin stands inWriting
    isReference

theorem usesVariable_compile_iff
    (compiles : environment.compile source = .ok formula) :
    ∃ tokens, environment.tokenize source = .ok tokens ∧
      (formula.usesVariable = true ↔
        ∃ token ∈ tokens, token.ReadsVariable) := by
  obtain ⟨tokens, ordered, expression, reads, -, -, converts, builds, rfl⟩ :=
    compile_eq_ok_iff.mp compiles
  obtain ⟨tree, raw, rfl, stands, -, rfl⟩ :=
    Expression.ofPostfix_eq_ok_iff.mp builds
  refine ⟨tokens, reads, ?_⟩
  rw [Formula.usesVariable, Expression.usesVariable_fold,
    Token.Tree.usesVariable_iff stands]
  constructor
  · rintro ⟨token, inWriting, isReading⟩
    exact ⟨token, (Token.mem_toPostfix converts isReading.isWord).mp inWriting,
      isReading⟩
  · rintro ⟨token, member, isReading⟩
    exact ⟨token, (Token.mem_toPostfix converts isReading.isWord).mpr member,
      isReading⟩

/-- A compiled formula refers to exactly the names of the user that are
identifiers of its source, which is what a worksheet goes by; it reads the free
variable exactly if one of the tokens is the variable or a derivative; and
folding has no part in either. -/
theorem dependencies_of_compile
    (compiles : environment.compile source = .ok formula) :
    (∀ name, builtinDefinition? name = none →
      (formula.references name = true ↔
          ∃ position, (position, name) ∈ identifiers source) ∧
        formula.references name = mentions source name) ∧
      (∃ tokens, environment.tokenize source = .ok tokens ∧
        (formula.usesVariable = true ↔
          ∃ token ∈ tokens, token.kind = .freeVariable ∨
            token.kind = .function ∧ token.text = derivativeName)) ∧
      ∀ expression : Expression,
        expression.fold.usesVariable = expression.usesVariable ∧
          ∀ name, expression.fold.references name =
            expression.references name := by
  refine ⟨fun name notBuiltin => ?_, usesVariable_compile_iff compiles,
    fun expression => ⟨expression.usesVariable_fold,
      expression.references_fold⟩⟩
  have agrees : formula.references name = true ↔
      mentions source name = true :=
    ⟨mentions_of_references_compile compiles,
      references_of_mentions_compile compiles notBuiltin⟩
  exact ⟨agrees.trans exists_mem_identifiers_iff.symm,
    Bool.eq_iff_iff.mpr agrees⟩

/-- Folding leaves the reference beside a product of numbers, and the derivative
of a constant is a function still. -/
theorem dependencies_of_compile_product :
    let environment := (empty {}).insert ['a'] (.constant 5 ['5'])
    ∃ formula,
      environment.compile "2 * 3 a + d/dx(a)".toList = .ok formula ∧
        formula.references ['a'] = true ∧ formula.usesVariable = true := by
  intro environment
  obtain ⟨formula, compiles⟩ :
      ∃ formula,
        environment.compile "2 * 3 a + d/dx(a)".toList = .ok formula :=
    exists_eq_ok_of_isSome (by decide +kernel)
  obtain ⟨references, ⟨tokens, reads, usesVariable⟩, -⟩ :=
    dependencies_of_compile compiles
  have isMentioned : mentions "2 * 3 a + d/dx(a)".toList ['a'] = true := by
    decide +kernel
  have readsVariable : (environment.tokenize
      "2 * 3 a + d/dx(a)".toList).toOption.any (List.any · fun token =>
        token.kind = .function ∧ token.text = derivativeName) = true := by
    decide +kernel
  refine ⟨formula, compiles, (references ['a'] rfl).2.trans isMentioned,
    usesVariable.mpr ?_⟩
  rw [reads] at readsVariable
  simp only [Except.toOption, Option.any_some, List.any_eq_true,
    decide_eq_true_eq] at readsVariable
  obtain ⟨token, member, isDerivative⟩ := readsVariable
  exact ⟨token, member, .inr isDerivative⟩

end Environment
end GraphingCalculator
