import GraphingCalculator.Proofs.Environment.Evaluation
import GraphingCalculator.Proofs.Grammar.Compilation
import GraphingCalculator.Proofs.Source.Replacement
import Mathlib.Data.List.Forall2

/-!
# A renamed source is compiled to the renamed formula

A renaming moves the tokens of a source and turns some of their names, but it
changes no kind.  The grammar looks at kinds only, so that the new tokens derive
in the same way, and the tree of the derivation stands for the renamed
expression.
-/

namespace GraphingCalculator

variable {old new : Text}

theorem Environment.builtinDefinition?_eq_none_iff {name : Text} :
    builtinDefinition? name = none ↔
      BuiltinConstant.ofName? name = none ∧
        BuiltinFunction.ofName? name = none := by
  unfold builtinDefinition?
  cases BuiltinConstant.ofName? name <;> simp

namespace Expression

section Building

variable (definableOld : IsDefinable old) (definableNew : IsDefinable new)
include definableOld definableNew

theorem rename_ofConstantName (name : Text) :
    (ofConstantName name).rename old new =
      ofConstantName (renameName old new name) := by
  obtain ⟨notOld, -⟩ :=
    Environment.builtinDefinition?_eq_none_iff.mp definableOld.not_builtin
  obtain ⟨notNew, -⟩ :=
    Environment.builtinDefinition?_eq_none_iff.mp definableNew.not_builtin
  by_cases isOld : name = old
  · simp [isOld, ofConstantName, notOld, notNew, rename]
  · rw [renameName_of_ne isOld]
    unfold ofConstantName
    split
    next => rfl
    next => rw [rename, renameName_of_ne isOld]

theorem rename_ofFunctionName (name : Text) (argument : Expression) :
    (ofFunctionName name argument).rename old new =
      ofFunctionName (renameName old new name) (argument.rename old new) := by
  obtain ⟨-, notOld⟩ :=
    Environment.builtinDefinition?_eq_none_iff.mp definableOld.not_builtin
  obtain ⟨-, notNew⟩ :=
    Environment.builtinDefinition?_eq_none_iff.mp definableNew.not_builtin
  by_cases isOld : name = old
  · simp [isOld, ofFunctionName, notOld, notNew, rename,
      Ne.symm definableOld.ne_derivativeName,
      Ne.symm definableNew.ne_derivativeName]
  · rw [renameName_of_ne isOld]
    unfold ofFunctionName
    split
    next => rfl
    split
    next => rfl
    next => rw [rename, renameName_of_ne isOld]

end Building

end Expression

namespace Token

/-- A token after a renaming.  It keeps its kind, but it can stand at another
place. -/
structure IsRenamed (old new : Text) (first second : Token) : Prop where
  kind : second.kind = first.kind
  numeral : first.kind = .number → second.text = first.text
  name : first.kind = .constant ∨ first.kind = .function →
    second.text = Expression.renameName old new first.text

/-- A token that holds no name is renamed when it is moved. -/
theorem isRenamed_of_not_name {first second : Token}
    (sameKind : second.kind = first.kind) (sameText : second.text = first.text)
    (notName : first.kind ≠ .constant ∧ first.kind ≠ .function) :
    IsRenamed old new first second where
  kind := sameKind
  numeral _ := sameText
  name isName := absurd isName (by simp [notName])

/-- A tree after a renaming of its tokens. -/
inductive Tree.IsRenamed (old new : Text) : Token.Tree → Token.Tree → Prop
  | leaf {first second : Token} (token : first.IsRenamed old new second) :
      IsRenamed old new (.leaf first) (.leaf second)
  | operation {first second : Token}
      {firstLeft secondLeft firstRight secondRight : Token.Tree}
      (token : first.IsRenamed old new second)
      (left : IsRenamed old new firstLeft secondLeft)
      (right : IsRenamed old new firstRight secondRight) :
      IsRenamed old new (.operation first firstLeft firstRight)
        (.operation second secondLeft secondRight)
  | application {first second : Token} {firstArgument secondArgument : Tree}
      (token : first.IsRenamed old new second)
      (argument : IsRenamed old new firstArgument secondArgument) :
      IsRenamed old new (.application first firstArgument)
        (.application second secondArgument)

namespace Tree.IsRenamed

variable {first second : Token.Tree}

theorem nesting_eq (renamed : first.IsRenamed old new second) :
    second.nesting = first.nesting := by
  induction renamed with
  | leaf => rfl
  | operation token left right leftIH rightIH =>
      rw [nesting, nesting, leftIH, rightIH]
  | application token argument ih => rw [nesting, nesting, ih]

/-- A renamed tree stands for the renamed expression. -/
theorem expression?_eq_some (renamed : first.IsRenamed old new second)
    (definableOld : IsDefinable old) (definableNew : IsDefinable new)
    {expression : Expression}
    (stands : first.expression? = some expression) :
    second.expression? = some (expression.rename old new) := by
  induction renamed generalizing expression with
  | leaf token =>
      rw [expression?, leafExpression?] at stands ⊢
      rw [token.kind]
      split at stands
      next isNumber =>
          obtain ⟨number, isNumeral, rfl⟩ := Option.map_eq_some_iff.mp stands
          simp [token.numeral isNumber, isNumeral, Expression.rename]
      next isVariable =>
          cases stands
          rfl
      next isConstant =>
          cases stands
          rw [token.name (.inl isConstant),
            Expression.rename_ofConstantName definableOld definableNew]
      next => contradiction
  | operation token left right leftIH rightIH =>
      obtain ⟨operator, first, second, isOperator, isFirst, isSecond, rfl⟩ :=
        expression?_operation_eq_some_iff.mp stands
      exact expression?_operation_eq_some_iff.mpr
        ⟨operator, _, _, token.kind.trans isOperator, leftIH isFirst,
          rightIH isSecond, rfl⟩
  | application token argument ih =>
      obtain ⟨isFunction, operand, isOperand, rfl⟩ :=
        expression?_application_eq_some_iff.mp stands
      refine expression?_application_eq_some_iff.mpr
        ⟨token.kind.trans isFunction, _, ih isOperand, ?_⟩
      rw [token.name (.inr isFunction),
        Expression.rename_ofFunctionName definableOld definableNew]

end Tree.IsRenamed
end Token

section Derivation

private theorem exists_append_of_forall₂ {Item : Type}
    {related : Item → Item → Prop} {first second whole : List Item}
    (isRelated : List.Forall₂ related (first ++ second) whole) :
    ∃ left right, whole = left ++ right ∧ List.Forall₂ related first left ∧
      List.Forall₂ related second right := by
  induction first generalizing whole with
  | nil => exact ⟨[], whole, rfl, .nil, isRelated⟩
  | cons item rest ih =>
      cases isRelated with
      | cons isItem isRest =>
          obtain ⟨left, right, rfl, isLeft, isRight⟩ := ih isRest
          exact ⟨_, right, rfl, .cons isItem isLeft, isRight⟩

private theorem exists_head?_of_forall₂ {Item : Type}
    {related : Item → Item → Prop} {first second : List Item}
    (isRelated : List.Forall₂ related first second) {item : Item}
    (isHead : first.head? = some item) :
    ∃ other, second.head? = some other ∧ related item other := by
  cases isRelated with
  | nil => contradiction
  | cons isItem isRest =>
      cases isHead
      exact ⟨_, rfl, isItem⟩

private theorem exists_getLast?_of_forall₂ {Item : Type}
    {related : Item → Item → Prop} {first second : List Item}
    (isRelated : List.Forall₂ related first second) {item : Item}
    (isLast : first.getLast? = some item) :
    ∃ other, second.getLast? = some other ∧ related item other := by
  rw [List.getLast?_eq_head?_reverse] at isLast ⊢
  exact exists_head?_of_forall₂ (List.rel_reverse isRelated) isLast

private theorem exists_group_of_forall₂ {Item : Type}
    {related : Item → Item → Prop} {opening closing : Item}
    {inside whole : List Item}
    (isRelated :
      List.Forall₂ related (opening :: (inside ++ [closing])) whole) :
    ∃ first middle last, whole = first :: (middle ++ [last]) ∧
      related opening first ∧ List.Forall₂ related inside middle ∧
        related closing last := by
  cases isRelated with
  | cons isFirst isRest =>
      obtain ⟨middle, ending, rfl, isMiddle, isEnding⟩ :=
        exists_append_of_forall₂ isRest
      cases isEnding with
      | cons isLast nothing =>
          cases nothing
          exact ⟨_, middle, _, rfl, isFirst, isMiddle, isLast⟩

/-- The grammar looks at the kinds of tokens only. -/
theorem Derives.rename {level : Level} {tokens renamed : List Token}
    {tree : Token.Tree} (derives : Derives level tokens tree)
    (isRenamed : List.Forall₂ (Token.IsRenamed old new) tokens renamed) :
    ∃ other, Derives level renamed other ∧ tree.IsRenamed old new other := by
  induction derives generalizing renamed with
  | operand isAtom =>
      cases isRenamed with
      | cons token nothing =>
          cases nothing
          exact ⟨_, .operand (token.kind ▸ isAtom), .leaf token⟩
  | group isOpening isClosing inside ih =>
      obtain ⟨opening, middle, closing, rfl, first, between, last⟩ :=
        exists_group_of_forall₂ isRenamed
      obtain ⟨other, derives, isTree⟩ := ih between
      exact ⟨other, .group (first.kind.trans isOpening)
        (last.kind.trans isClosing) derives, isTree⟩
  | application isFunction isOpening isClosing inside ih =>
      cases isRenamed with
      | cons function rest =>
          obtain ⟨opening, middle, closing, rfl, first, between, last⟩ :=
            exists_group_of_forall₂ rest
          obtain ⟨other, derives, isTree⟩ := ih between
          exact ⟨.application _ other,
            .application (function.kind.trans isFunction)
              (first.kind.trans isOpening) (last.kind.trans isClosing) derives,
            .application function isTree⟩
  | tighter operand ih =>
      obtain ⟨other, derives, isTree⟩ := ih isRenamed
      exact ⟨other, .tighter derives, isTree⟩
  | operation first isOperator isOfLevel second firstIH secondIH =>
      obtain ⟨leftTokens, rest, rfl, isLeft, isRest⟩ :=
        exists_append_of_forall₂ isRenamed
      cases isRest with
      | cons token isRight =>
          obtain ⟨left, derivesLeft, isLeftTree⟩ := firstIH isLeft
          obtain ⟨right, derivesRight, isRightTree⟩ := secondIH isRight
          exact ⟨.operation _ left right,
            .operation derivesLeft (token.kind.trans isOperator) isOfLevel
              derivesRight,
            .operation token isLeftTree isRightTree⟩
  | juxtaposition first isLast isAtom isNext notNumbers second firstIH
      secondIH =>
      obtain ⟨leftTokens, rightTokens, rfl, isLeft, isRight⟩ :=
        exists_append_of_forall₂ isRenamed
      obtain ⟨left, derivesLeft, isLeftTree⟩ := firstIH isLeft
      obtain ⟨right, derivesRight, isRightTree⟩ := secondIH isRight
      obtain ⟨last, isLastRenamed, lastToken⟩ :=
        exists_getLast?_of_forall₂ isLeft isLast
      obtain ⟨next, isNextRenamed, nextToken⟩ :=
        exists_head?_of_forall₂ isRight isNext
      refine ⟨.operation (.impliedProduct next.position) left right,
        .juxtaposition derivesLeft isLastRenamed (lastToken.kind ▸ isAtom)
          isNextRenamed ?_ derivesRight,
        .operation (Token.isRenamed_of_not_name rfl rfl ?_) isLeftTree
          isRightTree⟩
      · rwa [lastToken.kind, nextToken.kind]
      · simp [Token.impliedProduct]

theorem DerivesWhole.rename {tokens renamed : List Token} {tree : Token.Tree}
    (derives : DerivesWhole tokens tree)
    (isRenamed : List.Forall₂ (Token.IsRenamed old new) tokens renamed) :
    ∃ other, DerivesWhole renamed other ∧ tree.IsRenamed old new other := by
  induction derives generalizing renamed with
  | term first =>
      obtain ⟨other, derives, isTree⟩ := first.rename isRenamed
      exact ⟨other, .term derives, isTree⟩
  | negated isMinus first =>
      cases isRenamed with
      | @cons _ minus _ _ token rest =>
          obtain ⟨other, derives, isTree⟩ := first.rename rest
          refine ⟨.operation minus (.leaf (.impliedZero minus.position)) other,
            .negated (token.kind.trans isMinus) derives,
            .operation token (.leaf ?_) isTree⟩
          exact Token.isRenamed_of_not_name rfl rfl
            (by simp [Token.impliedZero])
  | operation first isOperator isOfLevel second ih =>
      obtain ⟨leftTokens, rest, rfl, isLeft, isRest⟩ :=
        exists_append_of_forall₂ isRenamed
      cases isRest with
      | cons token isRight =>
          obtain ⟨left, derivesLeft, isLeftTree⟩ := ih isLeft
          obtain ⟨right, derivesRight, isRightTree⟩ := second.rename isRight
          exact ⟨.operation _ left right,
            .operation derivesLeft (token.kind.trans isOperator) isOfLevel
              derivesRight,
            .operation token isLeftTree isRightTree⟩

end Derivation

/-- The tokens of renamed segments are renamed tokens, if the new names have the
kinds of the old ones. -/
theorem Source.exists_readTokens_rename (definable : IsDefinable old)
    {first second : Text → Option Token.Kind} (sound : IsClassification first)
    {pieces : List Segment} (wellRead : ∀ piece ∈ pieces, piece.IsWellRead)
    (known : ∀ piece ∈ pieces, piece.reading = .identifier →
      ∀ kind, first piece.text = some kind →
        second (Expression.renameName old new piece.text) = some kind)
    {position : Nat} (other : Nat) {tokens : List Token}
    (reads : readTokens first (locate position pieces) = .ok tokens) :
    ∃ renamed,
      readTokens second (locate other (pieces.map (Segment.rename old new))) =
          .ok renamed ∧
        List.Forall₂ (Token.IsRenamed old new) tokens renamed := by
  induction pieces generalizing position other tokens with
  | nil =>
      cases reads
      exact ⟨[], rfl, .nil⟩
  | cons piece rest ih =>
      have further {place : Nat} (elsewhere : Nat) {others : List Token}
          (readsRest : readTokens first (locate place rest) = .ok others) :=
        ih (fun piece member => wellRead piece (List.mem_cons_of_mem _ member))
          (fun piece member => known piece (List.mem_cons_of_mem _ member))
          elsewhere readsRest
      have isToken {kind : Token.Kind} {text renamedText : Text}
          {place : Nat} (elsewhere : Nat)
          (isRenamed : (Token.mk kind text position).IsRenamed old new
            ⟨kind, renamedText, other⟩)
          (reads : (do
            let others ← readTokens first (locate place rest)
            return Token.mk kind text position :: others) = .ok tokens) :
          ∃ renamed,
            (do
              let others ← readTokens second
                (locate elsewhere (rest.map (Segment.rename old new)))
              return Token.mk kind renamedText other :: others) =
                .ok renamed ∧
              List.Forall₂ (Token.IsRenamed old new) tokens renamed := by
        obtain ⟨others, readsRest, isTokens⟩ := bind_eq_ok_iff.mp reads
        cases isTokens
        obtain ⟨renamed, readsRenamed, isRest⟩ := further elsewhere readsRest
        rw [readsRenamed]
        exact ⟨_, rfl, .cons isRenamed isRest⟩
      have notNamed {kind : Token.Kind} {text : Text}
          (notName : kind ≠ .constant ∧ kind ≠ .function) :
          (Token.mk kind text position).IsRenamed old new ⟨kind, text, other⟩ :=
        Token.isRenamed_of_not_name rfl rfl notName
      rw [List.map_cons]
      cases wellRead piece List.mem_cons_self with
      | blank white => exact further _ reads
      | numeral isNumeral => exact isToken _ (notNamed (by simp)) reads
      | openParen => exact isToken _ (notNamed (by simp)) reads
      | closeParen => exact isToken _ (notNamed (by simp)) reads
      | freeVariable => exact isToken _ (notNamed (by simp)) reads
      | operator operator => exact isToken _ (notNamed (by simp)) reads
      | derivative =>
          refine isToken _ ⟨rfl, by simp, fun _ => ?_⟩ reads
          exact (Expression.renameName_of_ne definable.ne_derivativeName).symm
      | identifier isName notVariable =>
          rw [Segment.rename_identifier]
          unfold locate readTokens at reads ⊢
          dsimp only at reads ⊢
          split at reads
          next kind isKnown =>
              rw [known _ List.mem_cons_self rfl kind isKnown]
              refine isToken _ ⟨rfl, fun isNumber => ?_, fun _ => rfl⟩ reads
              dsimp only at isNumber
              rcases sound _ _ isKnown with isName | isName <;>
                simp [isName] at isNumber
          next => contradiction
      | mistake => contradiction

/-- A renaming brings no equals sign into a source. -/
theorem not_mem_renameIdentifier {source : Text}
    (isName : isIdentifier new = true) (noEquals : '=' ∉ source) :
    '=' ∉ renameIdentifier old new source := by
  intro member
  obtain ⟨piece, inSource, member⟩ := List.mem_flatMap.mp member
  rw [Segment.renamedText] at member
  split at member
  · have plain := (isPlain_of_isIdentifier isName).2 _ member
    contradiction
  · rw [← flatMap_text_segments source] at noEquals
    exact noEquals (List.mem_flatMap.mpr ⟨piece, inSource, member⟩)

namespace Environment

variable {first second : Environment} {source : Text} {formula : Formula}

/-- A source that compiles still compiles after a renaming, and its formula is
renamed, if the new source falls into the renamed segments and the names in it
keep their kinds. -/
theorem compile_renameIdentifier (definableOld : IsDefinable old)
    (definableNew : IsDefinable new) (sameLimits : first.limits = second.limits)
    (known : ∀ name, mentions source name = true →
      ∀ kind, first.classify name = some kind →
        second.classify (Expression.renameName old new name) = some kind)
    (splits : segments (renameIdentifier old new source) =
      (segments source).map (Segment.rename old new))
    (compiles : first.compile source = .ok formula) :
    second.compile (renameIdentifier old new source) =
      .ok (formula.rename old new) := by
  obtain ⟨tokens, tree, accepts⟩ := exists_accepts_of_compile compiles
  obtain ⟨raw, stands⟩ := accepts.derives.exists_expression? accepts.isSpelled
  have isFormula : formula = ⟨source, raw.fold⟩ :=
    Except.ok.inj (compiles.symm.trans (accepts.compile_eq_ok stands))
  obtain ⟨renamed, reads, isRenamed⟩ := Source.exists_readTokens_rename
    definableOld first.isClassification_classify
    (fun piece => Segment.isWellRead_of_mem_segments)
    (fun piece member isName => known piece.text
      (mentions_eq_true_iff.mpr ⟨piece, member, isName, rfl⟩)) 0 accepts.reads
  obtain ⟨other, derives, isTree⟩ := accepts.derives.rename isRenamed
  have acceptsOther : second.Accepts (renameIdentifier old new source) renamed
      other := by
    constructor
    · exact not_mem_renameIdentifier definableNew.identifier accepts.noEquals
    · rw [splits]
      exact reads
    · rw [← isRenamed.length_eq, ← sameLimits]
      exact accepts.short
    · exact derives
    · rw [isTree.nesting_eq, ← sameLimits]
      exact accepts.shallow
  rw [acceptsOther.compile_eq_ok
    (isTree.expression?_eq_some definableOld definableNew stands), isFormula,
    Expression.fold_rename]
  rfl

end Environment
end GraphingCalculator
