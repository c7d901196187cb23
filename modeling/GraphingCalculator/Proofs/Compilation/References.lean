import GraphingCalculator.Environment.Compilation
import GraphingCalculator.Proofs.Folding
import GraphingCalculator.Proofs.Source.Reading
import GraphingCalculator.Proofs.Token.Stacks
import GraphingCalculator.Proofs.Token.Tree

/-!
# What a compiled source refers to

The names and the free variable that a source mentions become the references of
its expression: each of them is a token, postfix order keeps the token, and the
tree turns it into a node.  Folding drops only parts that refer to nothing.  And
the compilation of a source asks for nothing but the kinds of its identifiers,
so that two environments which agree on those compile it alike.
-/

namespace GraphingCalculator

/-- A token that is to be looked up under a name. -/
def Token.RefersTo (token : Token) (name : Text) : Prop :=
  token.text = name ∧
    (token.kind = .constant ∨ token.kind = .function ∧ name ≠ derivativeName)

/-- A token that reads the free variable: the variable itself, or a
derivative. -/
def Token.ReadsVariable (token : Token) : Prop :=
  token.kind = .freeVariable ∨
    token.kind = .function ∧ token.text = derivativeName

/-- The tokens that are written as names.  They are never implied by other
tokens. -/
def Token.Kind.isWord : Token.Kind → Bool
  | function | freeVariable | constant => true
  | _ => false

theorem Token.RefersTo.isWord {token : Token} {name : Text}
    (refers : token.RefersTo name) : token.kind.isWord = true := by
  rcases refers.2 with isConstant | ⟨isFunction, -⟩
  · rw [isConstant]
    rfl
  · rw [isFunction]
    rfl

theorem Token.ReadsVariable.isWord {token : Token}
    (reads : token.ReadsVariable) : token.kind.isWord = true := by
  rcases reads with isVariable | ⟨isFunction, -⟩
  · rw [isVariable]
    rfl
  · rw [isFunction]
    rfl

namespace Expression

@[simp]
theorem references_fold (expression : Expression) (name : Text) :
    expression.fold.references name = expression.references name := by
  induction expression with
  | freeVariable | value | constant => rfl
  | binary operator left right leftIH rightIH =>
      rw [fold_binary]
      rcases foldBinary_eq operator left.fold right.fold with same | folded
      · rw [same, references, references, leftIH, rightIH]
      · obtain ⟨first, second, result, leftValue, rightValue, -, isValue⟩ :=
          folded
        rw [isValue, references, references, ← leftIH, ← rightIH, leftValue,
          rightValue]
        rfl
  | apply function argument ih =>
      rw [fold_apply]
      rcases foldApply_eq function argument.fold with same | folded
      · rw [same, references, references, ih]
      · obtain ⟨operand, result, argumentValue, -, isValue⟩ := folded
        rw [isValue, references, references, ← ih, argumentValue]
        rfl
  | call function argument ih => rw [fold, references, references, ih]
  | derivative operand ih => exact ih

/-- A name of a constant is referred to unless it is built in. -/
theorem references_ofConstantName {name text : Text} :
    (ofConstantName text).references name = true ↔
      text = name ∧ BuiltinConstant.ofName? text = none := by
  unfold ofConstantName
  split
  next builtin => simp [references, builtin]
  next notBuiltin => simp [references, notBuiltin]

/-- A name of a function is referred to unless it is built in, and its argument
refers to what it referred to before. -/
theorem references_ofFunctionName {name text : Text} {argument : Expression} :
    (ofFunctionName text argument).references name = true ↔
      (text = name ∧ text ≠ derivativeName ∧
        BuiltinFunction.ofName? text = none) ∨
        argument.references name = true := by
  unfold ofFunctionName
  split
  next isDerivative => simp [references, isDerivative]
  next notDerivative =>
      split
      next builtin => simp [references, builtin]
      next notBuiltin => simp [references, notDerivative, notBuiltin]

theorem usesVariable_ofConstantName (text : Text) :
    (ofConstantName text).usesVariable = false := by
  unfold ofConstantName
  split <;> rfl

theorem usesVariable_ofFunctionName {text : Text} {argument : Expression} :
    (ofFunctionName text argument).usesVariable = true ↔
      text = derivativeName ∨ argument.usesVariable = true := by
  unfold ofFunctionName
  split
  next isDerivative => simp [usesVariable, isDerivative]
  next notDerivative => split <;> simp [usesVariable, notDerivative]

end Expression

namespace Environment

variable {name : Text}

theorem ofName?_eq_none_of_not_builtin
    (notBuiltin : builtinDefinition? name = none) :
    BuiltinConstant.ofName? name = none ∧
      BuiltinFunction.ofName? name = none := by
  unfold builtinDefinition? at notBuiltin
  split at notBuiltin
  · contradiction
  next notConstant => exact ⟨notConstant, by simpa using notBuiltin⟩

end Environment

namespace Token.Tree

/-- Each reference of an expression comes from a token. -/
theorem exists_mem_writing_of_references {name : Text} {tree : Token.Tree}
    {expression : Expression}
    (stands : tree.expression? = some expression)
    (refers : expression.references name = true) :
    ∃ token ∈ tree.writing, token.RefersTo name := by
  induction tree generalizing expression with
  | leaf token =>
      rw [expression?, leafExpression?] at stands
      split at stands
      next =>
          obtain ⟨number, -, rfl⟩ := Option.map_eq_some_iff.mp stands
          simp [Expression.references] at refers
      next =>
          cases stands
          simp [Expression.references] at refers
      next isConstant =>
          cases stands
          exact ⟨token, by simp [writing],
            (Expression.references_ofConstantName.mp refers).1,
            .inl isConstant⟩
      next => contradiction
  | operation token left right leftIH rightIH =>
      obtain ⟨operator, first, second, -, isFirst, isSecond, rfl⟩ :=
        expression?_operation_eq_some_iff.mp stands
      rw [Expression.references, Bool.or_eq_true] at refers
      rcases refers with inFirst | inSecond
      · obtain ⟨found, member, isFound⟩ := leftIH isFirst inFirst
        exact ⟨found, by simp [writing, member], isFound⟩
      · obtain ⟨found, member, isFound⟩ := rightIH isSecond inSecond
        exact ⟨found, by simp [writing, member], isFound⟩
  | application token argument ih =>
      obtain ⟨isFunction, operand, isOperand, rfl⟩ :=
        expression?_application_eq_some_iff.mp stands
      rcases Expression.references_ofFunctionName.mp refers with
        ⟨same, notDerivative, -⟩ | inArgument
      · exact ⟨token, by simp [writing], same,
          .inr ⟨isFunction, same ▸ notDerivative⟩⟩
      · obtain ⟨found, member, isFound⟩ := ih isOperand inArgument
        exact ⟨found, by simp [writing, member], isFound⟩

/-- Each token that is looked up under a name of the user is a reference of the
expression. -/
theorem references_of_mem_writing {name : Text}
    (notBuiltin : Environment.builtinDefinition? name = none)
    {tree : Token.Tree} {expression : Expression}
    (stands : tree.expression? = some expression) {found : Token}
    (member : found ∈ tree.writing) (refers : found.RefersTo name) :
    expression.references name = true := by
  obtain ⟨notConstant, notFunction⟩ :=
    Environment.ofName?_eq_none_of_not_builtin notBuiltin
  induction tree generalizing expression with
  | leaf token =>
      cases List.mem_singleton.mp member
      obtain ⟨rfl, isConstant | ⟨isFunction, -⟩⟩ := refers
      · rw [expression?, leafExpression?, isConstant] at stands
        cases stands
        exact Expression.references_ofConstantName.mpr ⟨rfl, notConstant⟩
      · rw [expression?, leafExpression?, isFunction] at stands
        contradiction
  | operation token left right leftIH rightIH =>
      obtain ⟨operator, first, second, isOperator, isFirst, isSecond, rfl⟩ :=
        expression?_operation_eq_some_iff.mp stands
      rw [Expression.references, Bool.or_eq_true]
      rw [writing, List.mem_append, List.mem_append, List.mem_singleton]
        at member
      rcases member with (inLeft | inRight) | rfl
      · exact .inl (leftIH isFirst inLeft)
      · exact .inr (rightIH isSecond inRight)
      · simpa [isOperator, Token.Kind.isWord] using refers.isWord
  | application token argument ih =>
      obtain ⟨isFunction, operand, isOperand, rfl⟩ :=
        expression?_application_eq_some_iff.mp stands
      rw [Expression.references_ofFunctionName]
      rw [writing, List.mem_append, List.mem_singleton] at member
      rcases member with inArgument | rfl
      · exact .inr (ih isOperand inArgument)
      · obtain ⟨rfl, isConstant | ⟨-, notDerivative⟩⟩ := refers
        · simp [isFunction] at isConstant
        · exact .inl ⟨rfl, notDerivative, notFunction⟩

/-- An expression depends on the free variable exactly if one of its tokens
does. -/
theorem usesVariable_iff {tree : Token.Tree} {expression : Expression}
    (stands : tree.expression? = some expression) :
    expression.usesVariable = true ↔
      ∃ token ∈ tree.writing, token.ReadsVariable := by
  induction tree generalizing expression with
  | leaf token =>
      simp only [writing, List.mem_singleton, exists_eq_left]
      rw [expression?, leafExpression?] at stands
      split at stands
      next isNumber =>
          obtain ⟨number, -, rfl⟩ := Option.map_eq_some_iff.mp stands
          simp [Expression.usesVariable, Token.ReadsVariable, isNumber]
      next isVariable =>
          cases stands
          simp [Expression.usesVariable, Token.ReadsVariable, isVariable]
      next isConstant =>
          cases stands
          simp [Expression.usesVariable_ofConstantName, Token.ReadsVariable,
            isConstant]
      next => contradiction
  | operation token left right leftIH rightIH =>
      obtain ⟨operator, first, second, isOperator, isFirst, isSecond, rfl⟩ :=
        expression?_operation_eq_some_iff.mp stands
      have notVariable : ¬ token.ReadsVariable := by
        simp [Token.ReadsVariable, isOperator]
      rw [Expression.usesVariable, Bool.or_eq_true, leftIH isFirst,
        rightIH isSecond]
      simp [writing, or_and_right, exists_or, notVariable]
  | application token argument ih =>
      obtain ⟨isFunction, operand, isOperand, rfl⟩ :=
        expression?_application_eq_some_iff.mp stands
      have readsVariable :
          token.ReadsVariable ↔ token.text = derivativeName := by
        simp [Token.ReadsVariable, isFunction]
      rw [Expression.usesVariable_ofFunctionName, ih isOperand]
      simp [writing, or_and_right, exists_or, readsVariable, or_comm]

end Token.Tree

namespace Postfix.State

variable {state next : State} {token found : Token}

/-- Reading a token adds no word but that token, and takes none away. -/
theorem mem_tokens_read (reads : state.read token = .ok next)
    (isWord : found.kind.isWord = true) :
    found ∈ next.tokens ↔ found = token ∨ found ∈ state.tokens := by
  have notProduct : found ∉ state.impliedProducts token := by
    unfold impliedProducts
    split
    · rw [List.mem_singleton]
      rintro rfl
      contradiction
    · simp
  have notZero : found ∉ state.impliedZeros token := by
    unfold impliedZeros
    split
    · rw [List.mem_singleton]
      rintro rfl
      contradiction
    · simp
  obtain ⟨-, ⟨-, added⟩ | ⟨isClosing, opening, isOpening, taken⟩⟩ :=
    perm_read reads
  · simp [added.mem_iff, notProduct, notZero]
  · have notToken : found ≠ token := by
      rintro rfl
      simp [isClosing, Token.Kind.isWord] at isWord
    have notOpening : found ≠ opening := by
      rintro rfl
      simp [isOpening, Token.Kind.isWord] at isWord
    simp [taken.mem_iff, notToken, notOpening]

theorem mem_tokens_foldlM {tokens : List Token}
    (reads : tokens.foldlM read state = .ok next)
    (isWord : found.kind.isWord = true) :
    found ∈ next.tokens ↔ found ∈ state.tokens ∨ found ∈ tokens := by
  induction tokens generalizing state with
  | nil =>
      cases reads
      simp
  | cons token rest ih =>
      rw [List.foldlM_cons, bind_eq_ok_iff] at reads
      obtain ⟨middle, readsFirst, readsRest⟩ := reads
      rw [ih readsRest, mem_tokens_read readsFirst isWord, List.mem_cons,
        or_comm (a := found = token), or_assoc]

end Postfix.State

/-- The words of a source are the same in postfix order. -/
theorem Token.mem_toPostfix {tokens ordered : List Token}
    (converts : toPostfix tokens = .ok ordered) {token : Token}
    (isWord : token.kind.isWord = true) :
    token ∈ ordered ↔ token ∈ tokens := by
  obtain ⟨last, reads, finishes⟩ := bind_eq_ok_iff.mp converts
  have inLast : token ∈ ordered ↔ token ∈ last.tokens := by
    unfold Postfix.State.finish at finishes
    split at finishes
    · contradiction
    · cases finishes
      simp [Postfix.State.tokens]
  rw [inLast, Postfix.State.mem_tokens_foldlM reads isWord]
  simp [Postfix.State.tokens, Postfix.State.initial]

namespace Source

variable {classify : Text → Option Token.Kind} {source : Text}

theorem tokenize_eq_ok_iff {tokens : List Token} :
    tokenize classify source = .ok tokens ↔
      Text.splitAtFirst? '=' source = none ∧ check source = .ok () ∧
        readTokens classify (locate 0 (segments source)) = .ok tokens := by
  unfold tokenize
  split
  next split => simp [split]
  next split => simp [split, check_bind_eq_ok_iff]

/-- A token that is looked up is an identifier of the source, and has the kind
of its name. -/
theorem exists_identifier_of_refersTo {tokens : List Token}
    (reads : readTokens classify (locate 0 (segments source)) = .ok tokens)
    {token : Token} (member : token ∈ tokens) {name : Text}
    (refers : token.RefersTo name) :
    (∃ segment ∈ segments source,
        segment.reading = .identifier ∧ segment.text = name) ∧
      classify name = some token.kind := by
  obtain ⟨⟨position, segment⟩, inPieces, sameText, isRead⟩ :=
    exists_segment_of_mem_readTokens reads member
  have inSegments : segment ∈ segments source :=
    mem_segments_of_mem_locate inPieces
  obtain ⟨sameName, isReference⟩ := refers
  rcases isRead with isToken | ⟨isIdentifier, known⟩
  · have wellRead := Segment.isWellRead_of_mem_segments inSegments
    dsimp only at sameText isToken
    rcases isReference with isConstant | ⟨isFunction, notDerivative⟩
    · rw [isConstant] at isToken
      cases wellRead <;> simp at isToken
    · rw [isFunction] at isToken
      cases wellRead <;> simp at isToken
      exact absurd (sameName.symm.trans sameText) notDerivative
  · exact ⟨⟨segment, inSegments, isIdentifier, by rw [← sameText, sameName]⟩,
      by rw [← sameName, known]⟩

/-- Every identifier of a source becomes a token, of the kind of its name. -/
theorem exists_token_of_identifier {pieces : List (Nat × Segment)}
    {tokens : List Token} (reads : readTokens classify pieces = .ok tokens)
    {piece : Nat × Segment} (member : piece ∈ pieces)
    (isIdentifier : piece.2.reading = .identifier) :
    ∃ kind, classify piece.2.text = some kind ∧
      ⟨kind, piece.2.text, piece.1⟩ ∈ tokens := by
  induction pieces generalizing tokens with
  | nil => simp at member
  | cons first rest ih =>
      obtain ⟨position, segment⟩ := first
      unfold readTokens at reads
      rcases List.mem_cons.mp member with rfl | later
      · rw [isIdentifier] at reads
        dsimp only at reads
        split at reads
        next kind known =>
            obtain ⟨others, -, reads⟩ := bind_eq_ok_iff.mp reads
            cases reads
            exact ⟨kind, known, List.mem_cons_self⟩
        next => contradiction
      · have later {others : List Token}
            (readsRest : readTokens classify rest = .ok others) :=
          ih readsRest later
        split at reads
        next => exact later reads
        next =>
            obtain ⟨others, readsRest, reads⟩ := bind_eq_ok_iff.mp reads
            cases reads
            obtain ⟨kind, known, inOthers⟩ := later readsRest
            exact ⟨kind, known, List.mem_cons_of_mem _ inOthers⟩
        next =>
            split at reads
            next =>
                obtain ⟨others, readsRest, reads⟩ := bind_eq_ok_iff.mp reads
                cases reads
                obtain ⟨kind, known, inOthers⟩ := later readsRest
                exact ⟨kind, known, List.mem_cons_of_mem _ inOthers⟩
            next => contradiction
        next => contradiction

/-- Every name that a source mentions becomes a token. -/
theorem exists_token_of_mentions {tokens : List Token}
    (reads : readTokens classify (locate 0 (segments source)) = .ok tokens)
    {name : Text} (mentioned : mentions source name = true) :
    isIdentifier name = true ∧ ∃ token ∈ tokens, token.text = name ∧
      classify name = some token.kind := by
  obtain ⟨segment, member, isRead, rfl⟩ := mentions_eq_true_iff.mp mentioned
  have wellRead := Segment.isWellRead_of_mem_segments member
  rw [← map_snd_locate 0 (segments source), List.mem_map] at member
  obtain ⟨piece, inPieces, rfl⟩ := member
  obtain ⟨kind, known, inTokens⟩ :=
    exists_token_of_identifier reads inPieces isRead
  refine ⟨?_, _, inTokens, rfl, known⟩
  generalize piece.2 = segment at wellRead isRead
  cases wellRead with
  | identifier isName => exact isName
  | _ => contradiction

theorem readTokens_congr {first second : Text → Option Token.Kind}
    {pieces : List (Nat × Segment)}
    (same : ∀ piece ∈ pieces, piece.2.reading = .identifier →
      first piece.2.text = second piece.2.text) :
    readTokens first pieces = readTokens second pieces := by
  induction pieces with
  | nil => rfl
  | cons piece rest ih =>
      obtain ⟨position, segment⟩ := piece
      have sameRest := ih fun piece member =>
        same piece (List.mem_cons_of_mem _ member)
      unfold readTokens
      split
      · exact sameRest
      · rw [sameRest]
      next isIdentifier =>
          rw [same _ List.mem_cons_self isIdentifier, sameRest]
      · rfl

end Source

namespace Environment

variable {environment first second : Environment} {source : Text}
variable {formula : Formula}

/-- The passes of a compilation that succeeds. -/
theorem compile_eq_ok_iff :
    environment.compile source = .ok formula ↔
      ∃ tokens ordered expression,
        environment.tokenize source = .ok tokens ∧
          checkLength environment.limits tokens = .ok () ∧
            Token.checkAdjacency tokens = .ok () ∧
              Token.toPostfix tokens = .ok ordered ∧
                Expression.ofPostfix environment.limits.expressionDepth
                  ordered = .ok expression ∧
                  formula = ⟨source, expression⟩ := by
  unfold compile
  constructor
  · intro compiles
    obtain ⟨tokens, reads, compiles⟩ := bind_eq_ok_iff.mp compiles
    obtain ⟨short, compiles⟩ := check_bind_eq_ok_iff.mp compiles
    obtain ⟨neighbours, compiles⟩ := check_bind_eq_ok_iff.mp compiles
    obtain ⟨ordered, converts, compiles⟩ := bind_eq_ok_iff.mp compiles
    obtain ⟨expression, builds, compiles⟩ := bind_eq_ok_iff.mp compiles
    cases compiles
    exact ⟨tokens, ordered, expression, reads, short, neighbours, converts,
      builds, rfl⟩
  · rintro ⟨tokens, ordered, expression, reads, short, neighbours, converts,
      builds, rfl⟩
    rw [reads, ok_bind, short, ok_bind, neighbours, ok_bind, converts, ok_bind,
      builds, ok_bind]
    rfl

theorem source_of_compile
    (compiles : environment.compile source = .ok formula) :
    formula.source = source := by
  obtain ⟨tokens, ordered, expression, -, -, -, -, -, rfl⟩ :=
    compile_eq_ok_iff.mp compiles
  rfl

/-- A compiled formula refers to identifiers of its source only. -/
theorem mentions_of_references_compile
    (compiles : environment.compile source = .ok formula) {name : Text}
    (refers : formula.references name = true) :
    mentions source name = true := by
  obtain ⟨tokens, ordered, expression, reads, -, -, converts, builds, rfl⟩ :=
    compile_eq_ok_iff.mp compiles
  obtain ⟨tree, raw, rfl, stands, -, rfl⟩ :=
    Expression.ofPostfix_eq_ok_iff.mp builds
  obtain ⟨token, inWriting, isReference⟩ :=
    Token.Tree.exists_mem_writing_of_references stands
      (by simpa [Formula.references] using refers)
  have member := (Token.mem_toPostfix converts isReference.isWord).mp inWriting
  exact mentions_eq_true_iff.mpr (Source.exists_identifier_of_refersTo
    (Source.tokenize_eq_ok_iff.mp reads).2.2 member isReference).1

/-- Every name that a compiled source mentions is in use. -/
theorem classify_ne_none_of_compile
    (compiles : environment.compile source = .ok formula) {name : Text}
    (mentioned : mentions source name = true) :
    environment.classify name ≠ none := by
  obtain ⟨tokens, ordered, expression, reads, -⟩ :=
    compile_eq_ok_iff.mp compiles
  obtain ⟨-, token, -, -, known⟩ := Source.exists_token_of_mentions
    (Source.tokenize_eq_ok_iff.mp reads).2.2 mentioned
  simp [known]

/-- Compiling a source asks only for the kinds of its identifiers. -/
theorem compile_congr (sameLimits : first.limits = second.limits)
    (same : ∀ name, mentions source name = true →
      first.classify name = second.classify name) :
    first.compile source = second.compile source := by
  have sameTokens : first.tokenize source = second.tokenize source := by
    unfold tokenize Source.tokenize
    rw [Source.readTokens_congr]
    intro piece member isIdentifier
    exact same _ (mentions_eq_true_iff.mpr
      ⟨piece.2, mem_segments_of_mem_locate member, isIdentifier, rfl⟩)
  unfold compile
  rw [sameTokens, sameLimits]

end Environment
end GraphingCalculator
