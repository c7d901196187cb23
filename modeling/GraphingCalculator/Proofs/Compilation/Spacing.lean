import GraphingCalculator.Proofs.Compilation.Renaming
import GraphingCalculator.Proofs.Source.Spacing

/-!
# Blanks between tokens do not matter

The tokens of a text that compiles can be written down again with any blanks
between them.  They are read as the same tokens at other places, and neither the
grammar nor the meaning of a tree looks at places.  So the new text compiles to
the same expression.
-/

namespace GraphingCalculator

open Text

/-- A token that is moved is renamed from any name to itself. -/
theorem Token.IsMoved.isRenamed {first second : Token}
    (isMoved : first.IsMoved second) (name : Text) :
    first.IsRenamed name name second where
  kind := isMoved.kind
  numeral _ := isMoved.text
  name _ := by rw [isMoved.text, Expression.renameName_same]

/-- A tree stands for the same expression when its tokens are moved. -/
theorem Token.Tree.IsRenamed.expression?_eq {name : Text}
    {first second : Token.Tree} (isMoved : first.IsRenamed name name second) :
    second.expression? = first.expression? := by
  induction isMoved with
  | @leaf first second token =>
      rw [expression?, expression?, leafExpression?, leafExpression?,
        token.kind]
      split
      next isNumber => rw [token.numeral isNumber]
      next => rfl
      next isConstant =>
          rw [token.name (.inl isConstant), Expression.renameName_same]
      next => rfl
  | operation token left right leftIH rightIH =>
      rw [expression?, expression?, token.kind, leftIH, rightIH]
  | application token argument ih =>
      rw [expression?, expression?, token.kind, ih]
      split
      next isFunction =>
          rw [token.name (.inr isFunction), Expression.renameName_same]
      next => rfl

namespace Environment

variable {environment : Environment} {source : Text} {tokens : List Token}
variable {tree : Token.Tree}

/-- The tokens of an accepted text are accepted with any blanks between them. -/
theorem Accepts.exists_moved (accepts : environment.Accepts source tokens tree)
    {front text : Text} (white : IsWhite front)
    (spaced : IsSpaced (tokens.map Token.text) text) :
    ∃ moved other, environment.Accepts (front ++ text) moved other ∧
      List.Forall₂ Token.IsMoved tokens moved ∧
        other.expression? = tree.expression? := by
  have readFrom {token : Token} (member : token ∈ tokens) :=
    Source.isReadFrom_of_readTokens accepts.reads member
  obtain ⟨moved, reads, isMoved⟩ := Source.exists_readTokens_of_isSpaced spaced
    rfl (fun token member => (readFrom member).1) accepts.derives.isChain
    (0 + byteSize front)
  obtain ⟨other, derives, isTree⟩ := accepts.derives.rename
    (isMoved.imp fun _ _ token => token.isRenamed [])
  refine ⟨moved, other, ?_, isMoved, isTree.expression?_eq⟩
  constructor
  · intro member
    rcases List.mem_append.mp member with inFront | inText
    · exact white.not_mem_equals inFront
    rcases spaced.isBlank_or_mem inText with isBlank | ⟨word, inWords, inWord⟩
    · contradiction
    · obtain ⟨token, inTokens, rfl⟩ := List.mem_map.mp inWords
      exact accepts.noEquals ((readFrom inTokens).2 inWord)
  · rw [segments_blanks_append white, Source.readTokens_blanks white]
    exact reads
  · rw [← isMoved.length_eq]
    exact accepts.short
  · exact derives
  · rw [isTree.nesting_eq]
    exact accepts.shallow

theorem Accepts.tokenize_eq_ok
    (accepts : environment.Accepts source tokens tree) :
    environment.tokenize source = .ok tokens := by
  obtain ⟨raw, stands⟩ := accepts.derives.exists_expression? accepts.isSpelled
  obtain ⟨others, ordered, expression, tokenizes, -⟩ :=
    compile_eq_ok_iff.mp (accepts.compile_eq_ok stands)
  obtain ⟨-, -, reads⟩ := Source.tokenize_eq_ok_iff.mp tokenizes
  rw [tokenizes, ← reads, accepts.reads]

/-- A text that compiles can be written again with any blanks between its
tokens.  It then has the same tokens, at other places, and compiles to the same
expression. -/
theorem compile_of_isSpaced {formula : Formula}
    (compiles : environment.compile source = .ok formula) :
    ∃ tokens, environment.tokenize source = .ok tokens ∧
      ∀ front text, IsWhite front → IsSpaced (tokens.map Token.text) text →
        environment.compile (front ++ text) =
            .ok ⟨front ++ text, formula.expression⟩ ∧
          ∃ moved, environment.tokenize (front ++ text) = .ok moved ∧
            List.Forall₂ Token.IsMoved tokens moved := by
  obtain ⟨tokens, tree, accepts⟩ := exists_accepts_of_compile compiles
  obtain ⟨raw, stands⟩ := accepts.derives.exists_expression? accepts.isSpelled
  have isFormula : formula = ⟨source, raw.fold⟩ :=
    Except.ok.inj (compiles.symm.trans (accepts.compile_eq_ok stands))
  refine ⟨tokens, accepts.tokenize_eq_ok, fun front text white spaced => ?_⟩
  obtain ⟨moved, other, acceptsOther, isMoved, sameExpression⟩ :=
    accepts.exists_moved white spaced
  refine ⟨?_, moved, acceptsOther.tokenize_eq_ok, isMoved⟩
  rw [acceptsOther.compile_eq_ok (sameExpression.trans stands), isFormula]

/-- A multiple of a derivative with blanks between all of its tokens. -/
theorem compile_of_isSpaced_derivative :
    let expression : Expression :=
      .binary .times (.value 2) (.derivative .freeVariable)
    let spaced := " 2 d/dx\u3000(\tx )".toList
    (empty {}).compile "2d/dx(x)".toList =
        .ok ⟨"2d/dx(x)".toList, expression⟩ ∧
      (empty {}).compile spaced = .ok ⟨spaced, expression⟩ := by
  intro expression spaced
  have compiles : (empty {}).compile "2d/dx(x)".toList =
      .ok ⟨"2d/dx(x)".toList, expression⟩ := by
    decide +kernel
  obtain ⟨tokens, tokenizes, recompiles⟩ := compile_of_isSpaced compiles
  have isTokens : (empty {}).tokenize "2d/dx(x)".toList =
      .ok [⟨.number, ['2'], 0⟩, ⟨.function, derivativeName, 1⟩,
        ⟨.openParen, ['('], 5⟩, ⟨.freeVariable, variableName, 6⟩,
        ⟨.closeParen, [')'], 7⟩] := by
    decide +kernel
  have isWords := Except.ok.inj (tokenizes.symm.trans isTokens)
  have spaces : IsSpaced (tokens.map Token.text)
      "2 d/dx\u3000(\tx )".toList := by
    rw [isWords]
    exact
      .next (show IsWhite [' '] by decide) (by simp) <|
        .next (show IsWhite ['\u3000'] by decide) (by simp) <|
          .next (show IsWhite ['\t'] by decide) (by simp) <|
            .next (show IsWhite [' '] by decide) (by simp) <|
              .last (show IsWhite [] by decide)
  exact ⟨compiles, (recompiles [' '] _ (by decide) spaces).1⟩

end Environment
end GraphingCalculator
