import GraphingCalculator.Proofs.Compilation.References
import GraphingCalculator.Proofs.Grammar.Conversion
import GraphingCalculator.Proofs.Grammar.Meaning
import GraphingCalculator.Proofs.Grammar.Recognition
import GraphingCalculator.Proofs.Source.Checking

/-!
# The compilation accepts exactly the grammar

None of the passes of the compilation knows the grammar: one checks characters,
one checks neighbouring tokens, one moves tokens between two stacks, and one
reads them from behind.  Together they accept exactly the texts whose tokens
derive from the grammar, and what they build is the tree of that derivation.
-/

namespace GraphingCalculator

namespace Text

theorem splitAtFirst?_eq_none_iff {mark : Char} {text : Text} :
    splitAtFirst? mark text = none ↔ mark ∉ text := by
  induction text with
  | nil => simp [splitAtFirst?]
  | cons character rest ih =>
      rw [splitAtFirst?]
      split
      next isMark => simp [isMark]
      next notMark => simp [ih, Ne.symm notMark]

end Text

theorem Spells.isSpelled {text : Text} {tokens : List Token}
    (spells : Spells text tokens) : ∀ token ∈ tokens, token.IsSpelled := by
  induction spells with
  | nil => simp
  | blank white rest ih => exact ih
  | token spelled rest ih =>
      intro other member
      rcases List.mem_cons.mp member with rfl | later
      · exact spelled
      · exact ih other later

namespace Token

variable {tokens : List Token} {first last : Token}

/-- Only a minus is spelled like one. -/
theorem IsSpelled.isMinus_iff (spelled : first.IsSpelled)
    (isOperator : first.kind.isOperator = true) :
    first.text = [Operator.minus.toChar] ↔
      first.kind = .operator .minus := by
  cases spelled with
  | operator operator => cases operator <;> simp [Operator.toChar]
  | _ => contradiction

/-- The checks on neighbouring tokens, of which the first one is spelled. -/
theorem checkAdjacency_eq_ok_iff (isFirst : tokens.head? = some first)
    (isLast : tokens.getLast? = some last) (spelled : first.IsSpelled) :
    checkAdjacency tokens = .ok () ↔
      tokens.IsChain Fits ∧
        (first.kind.isOperator = true → first.kind = .operator .minus) ∧
          last.kind.isOperator = false := by
  rw [checkAdjacency, isFirst, isLast, check_bind_eq_ok_iff,
    checkPairs_eq_ok_iff, checkEnds]
  refine and_congr_right fun _ => ?_
  cases isOperator : first.kind.isOperator with
  | false => cases last.kind.isOperator <;> simp
  | true =>
      rw [← spelled.isMinus_iff isOperator]
      by_cases isMinus : first.text = [Operator.minus.toChar]
      · cases last.kind.isOperator <;> simp [isMinus]
      · simp [isMinus]

end Token

namespace Environment

variable {environment : Environment} {source : Text}

theorem isClassification_classify (environment : Environment) :
    IsClassification environment.classify := by
  intro name kind known
  unfold classify at known
  split at known <;> simp_all

theorem checkLength_eq_ok_iff {limits : Limits} {tokens : List Token} :
    checkLength limits tokens = .ok () ↔
      tokens.length ≤ limits.expressionLength := by
  rw [checkLength, ← List.getElem?_eq_none_iff]
  split
  next found => simp [found]
  next none => simp [none]

/-- A text without an equals sign whose tokens derive from the grammar, within
the limits of an environment. -/
structure Accepts (environment : Environment) (source : Text)
    (tokens : List Token) (tree : Token.Tree) : Prop where
  noEquals : '=' ∉ source
  reads : Source.readTokens environment.classify (locate 0 (segments source)) =
    .ok tokens
  short : tokens.length ≤ environment.limits.expressionLength
  derives : DerivesWhole tokens tree
  shallow : tree.nesting ≤ environment.limits.expressionDepth

variable {tokens : List Token} {tree : Token.Tree}

theorem Accepts.isSpelled (accepts : environment.Accepts source tokens tree) :
    ∀ token ∈ tokens, token.IsSpelled :=
  (spells_source environment.isClassification_classify accepts.reads).isSpelled

/-- No pass refuses a text that derives from the grammar. -/
theorem Accepts.compile_eq_ok (accepts : environment.Accepts source tokens tree)
    {raw : Expression} (stands : tree.expression? = some raw) :
    environment.compile source = .ok ⟨source, raw.fold⟩ := by
  have fits := accepts.derives.isChain
  have converts := Token.toPostfix_of_derivesWhole accepts.derives
  obtain ⟨first, rest, isTokens, begins⟩ := accepts.derives.exists_first
  obtain ⟨last, isLast, ends⟩ := accepts.derives.exists_last
  have isFirst : tokens.head? = some first := by rw [isTokens]; rfl
  have starts : first.kind.isOperator = true →
      first.kind = .operator .minus := by
    intro isOperator
    rcases begins with begins | isMinus
    · rw [Token.Kind.isOperator_of_beginsOperand begins] at isOperator
      contradiction
    · exact isMinus
  have startsHead : ∀ token ∈ tokens.head?, token.kind.isOperator = true →
      token.kind = .operator .minus := by
    intro token isHead
    rw [isFirst] at isHead
    cases isHead
    exact starts
  have notOperator := Token.Kind.isOperator_of_endsOperand ends
  obtain ⟨-, opened⟩ := Token.isReadable_of_toPostfix fits startsHead converts
    (Token.Tree.totalWeight_writing stands)
    (Token.Tree.openings_writing stands)
  have checks : Source.check source = .ok () :=
    Source.check_of_spells
      (spells_source environment.isClassification_classify accepts.reads)
      fits startsHead isLast ends opened accepts.derives.openings_eq.symm
  refine compile_eq_ok_iff.mpr ⟨tokens, tree.writing, raw.fold,
    Source.tokenize_eq_ok_iff.mpr
      ⟨Text.splitAtFirst?_eq_none_iff.mpr accepts.noEquals, checks,
        accepts.reads⟩,
    checkLength_eq_ok_iff.mpr accepts.short,
    (Token.checkAdjacency_eq_ok_iff isFirst isLast
      (accepts.isSpelled first (by simp [isTokens]))).mpr
      ⟨fits, starts, notOperator⟩,
    converts,
    Expression.ofPostfix_eq_ok_iff.mpr
      ⟨tree, raw, rfl, stands, accepts.shallow, rfl⟩,
    rfl⟩

/-- No pass lets a text through that does not derive from the grammar. -/
theorem exists_accepts_of_compile {formula : Formula}
    (compiles : environment.compile source = .ok formula) :
    ∃ tokens tree, environment.Accepts source tokens tree := by
  obtain ⟨tokens, ordered, expression, tokenizes, short, neighbours, converts,
    builds, -⟩ := compile_eq_ok_iff.mp compiles
  obtain ⟨noEquals, -, reads⟩ := Source.tokenize_eq_ok_iff.mp tokenizes
  obtain ⟨built, raw, rfl, isBuilt, shallow, -⟩ :=
    Expression.ofPostfix_eq_ok_iff.mp builds
  have spelled : ∀ token ∈ tokens, token.IsSpelled :=
    (spells_source environment.isClassification_classify reads).isSpelled
  cases tokens with
  | nil => contradiction
  | cons first rest =>
      obtain ⟨fits, starts, -⟩ := (Token.checkAdjacency_eq_ok_iff rfl
        (List.getLast?_eq_some_getLast (List.cons_ne_nil first rest))
        (spelled first List.mem_cons_self)).mp neighbours
      obtain ⟨readable, opened⟩ := Token.isReadable_of_toPostfix fits
        (by simpa using starts) converts
        (Token.Tree.totalWeight_writing isBuilt)
        (Token.Tree.openings_writing isBuilt)
      have begins : first.kind.beginsOperand = true ∨
          first.kind = .operator .minus := by
        have neverMore := opened [first] ⟨rest, rfl⟩
        cases isKind : first.kind <;>
          simp_all [Token.Kind.beginsOperand, Token.Kind.isOperator]
      obtain ⟨tree, derives⟩ := exists_derivesWhole readable opened begins
      obtain ⟨whole, isWhole⟩ := derives.exists_expression? spelled
      -- Both trees have the writing that the stacks produced.
      have sameWriting := (Token.toPostfix_of_derivesWhole derives).symm.trans
        converts
      have same := Token.Tree.writing_inj isWhole isBuilt
        (Except.ok.inj sameWriting)
      exact ⟨first :: rest, tree, Text.splitAtFirst?_eq_none_iff.mp noEquals,
        reads, checkLength_eq_ok_iff.mp short, derives, same ▸ shallow⟩

/-- A text derives from the grammar in at most one way. -/
theorem Accepts.unique {otherTokens : List Token} {otherTree : Token.Tree}
    (accepts : environment.Accepts source tokens tree)
    (other : environment.Accepts source otherTokens otherTree) :
    tokens = otherTokens ∧ tree = otherTree := by
  have sameTokens : tokens = otherTokens :=
    Except.ok.inj (accepts.reads.symm.trans other.reads)
  subst sameTokens
  obtain ⟨first, isFirst⟩ :=
    accepts.derives.exists_expression? accepts.isSpelled
  obtain ⟨second, isSecond⟩ := other.derives.exists_expression? other.isSpelled
  have sameWriting :=
    (Token.toPostfix_of_derivesWhole accepts.derives).symm.trans
      (Token.toPostfix_of_derivesWhole other.derives)
  exact ⟨rfl, Token.Tree.writing_inj isFirst isSecond
    (Except.ok.inj sameWriting)⟩

/-- The compilation succeeds exactly on the texts whose tokens derive from the
grammar within the limits, and builds the folded tree of the derivation. -/
theorem compile_iff_accepts (environment : Environment) (source : Text) :
    ((∃ formula, environment.compile source = .ok formula) ↔
        ∃ tokens tree, environment.Accepts source tokens tree) ∧
      ∀ tokens tree, environment.Accepts source tokens tree →
        ∃ raw, tree.expression? = some raw ∧
          environment.compile source = .ok ⟨source, raw.fold⟩ := by
  have compiles (tokens : List Token) (tree : Token.Tree)
      (accepts : environment.Accepts source tokens tree) :
      ∃ raw, tree.expression? = some raw ∧
        environment.compile source = .ok ⟨source, raw.fold⟩ := by
    obtain ⟨raw, stands⟩ :=
      accepts.derives.exists_expression? accepts.isSpelled
    exact ⟨raw, stands, accepts.compile_eq_ok stands⟩
  refine ⟨⟨fun ⟨_, isCompiled⟩ => exists_accepts_of_compile isCompiled, ?_⟩,
    compiles⟩
  rintro ⟨tokens, tree, accepts⟩
  obtain ⟨raw, -, isCompiled⟩ := compiles tokens tree accepts
  exact ⟨_, isCompiled⟩

end Environment
end GraphingCalculator
