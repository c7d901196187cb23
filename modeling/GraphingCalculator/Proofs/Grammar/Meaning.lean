import GraphingCalculator.Proofs.Grammar.Balance
import GraphingCalculator.Proofs.Source.Spelling

/-!
# What a derivation stands for

The tree of a derivation stands for an expression, because every token of a
source is spelled like its kind; above all, every numeral has a value.  And the
writing of a tree that stands for an expression belongs to no other such tree,
so that postfix tokens have at most one meaning.
-/

namespace GraphingCalculator

namespace Numeral

theorem exists_decimal? {whole fraction : Text} {text : Text}
    (isText : text = whole ∧ fraction = [] ∨ text = whole ++ '.' :: fraction)
    (nonempty : whole ≠ [] ∨ fraction ≠ [])
    (wholeDigit : ∀ character ∈ whole, character.isDigit = true)
    (fractionDigit : ∀ character ∈ fraction, character.isDigit = true) :
    ∃ number, decimal? text = some number := by
  have someDigits : (whole.isEmpty && fraction.isEmpty) = false := by
    simpa [Bool.and_eq_false_iff, ← imp_iff_not_or] using nonempty
  rcases isText with ⟨rfl, rfl⟩ | rfl
  · have splits : splitDigits text = (text, []) := by
      simp [splitDigits, List.takeWhile_eq_self_iff.mpr wholeDigit,
        List.dropWhile_eq_nil_iff.mpr wholeDigit]
    rw [decimal?, splits]
    simp only [someDigits, Bool.false_eq_true, if_false]
    exact ⟨_, rfl⟩
  · have splits : splitDigits (whole ++ '.' :: fraction) =
        (whole, '.' :: fraction) := by
      rw [splitDigits, List.takeWhile_append_of_pos wholeDigit,
        List.dropWhile_append_of_pos wholeDigit]
      simp
    have splitsAfter : splitDigits fraction = (fraction, []) := by
      simp [splitDigits, List.takeWhile_eq_self_iff.mpr fractionDigit,
        List.dropWhile_eq_nil_iff.mpr fractionDigit]
    rw [decimal?, splits]
    simp only [splitsAfter, someDigits, Bool.false_eq_true, if_false]
    exact ⟨_, rfl⟩

theorem exists_decimal?_of_isNumeral {text : Text}
    (isNumeral : IsNumeral text) : ∃ number, decimal? text = some number := by
  cases isNumeral with
  | whole nonempty isDigit =>
      exact exists_decimal? (.inl ⟨rfl, rfl⟩) (.inl nonempty) isDigit (by simp)
  | pointed nonempty wholeDigit fractionDigit =>
      exact exists_decimal? (.inr rfl) nonempty wholeDigit fractionDigit

theorem exists_first_of_isNumeral {text : Text} (isNumeral : IsNumeral text) :
    ∃ first rest, text = first :: rest ∧
      (first.isDigit = true ∨ first = '.') := by
  cases isNumeral with
  | whole nonempty isDigit =>
      obtain ⟨first, rest, rfl⟩ := List.exists_cons_of_ne_nil nonempty
      exact ⟨first, rest, rfl, .inl (isDigit first List.mem_cons_self)⟩
  | @pointed whole fraction nonempty wholeDigit fractionDigit =>
      cases whole with
      | nil => exact ⟨'.', fraction, rfl, .inr rfl⟩
      | cons first rest =>
          exact ⟨first, _, rfl, .inl (wholeDigit first List.mem_cons_self)⟩

private theorem toLower_of_isDigit {character : Char}
    (digit : character.isDigit = true) : character.toLower = character := by
  rw [Char.isDigit, Bool.and_eq_true, decide_eq_true_eq, decide_eq_true_eq]
    at digit
  have bound : character.val.toNat ≤ 57 := UInt32.le_iff_toNat_le.mp digit.2
  have notUpper : ¬ 'A'.val ≤ character.val := by
    rw [UInt32.le_iff_toNat_le]
    have code : 'A'.val.toNat = 65 := rfl
    omega
  exact dif_neg fun range => notUpper range.1

/-- Every numeral of a source has a value. -/
theorem exists_read?_of_isNumeral {text : Text} (isNumeral : IsNumeral text) :
    ∃ number, read? text = some number := by
  obtain ⟨number, isDecimal⟩ := exists_decimal?_of_isNumeral isNumeral
  obtain ⟨first, rest, rfl, begins⟩ := exists_first_of_isNumeral isNumeral
  have lower : first.toLower = first := by
    rcases begins with digit | rfl
    · exact toLower_of_isDigit digit
    · rfl
  have other (character : Char) (notDigit : character.isDigit = false)
      (notPoint : character ≠ '.') : first ≠ character := by
    rintro rfl
    simp [notDigit, notPoint] at begins
  have noSign : splitSign (first :: rest) = (false, first :: rest) := by
    unfold splitSign
    split
    next same => exact absurd (List.cons.inj same).1 (other '-' rfl (by decide))
    next same => exact absurd (List.cons.inj same).1 (other '+' rfl (by decide))
    next => rfl
  have isMagnitude : magnitude? (first :: rest) = some number := by
    simp [magnitude?, lower, other 'i' rfl (by decide),
      other 'n' rfl (by decide), isDecimal]
  exact ⟨number, by simp [read?, noSign, isMagnitude]⟩

end Numeral

namespace Token.Tree

/-- A token that is spelled like an atom stands for an operand. -/
theorem exists_leafExpression? {token : Token} (spelled : token.IsSpelled)
    (isAtom : token.kind.isAtom = true) :
    ∃ expression, leafExpression? token = some expression := by
  cases spelled with
  | numeral position isNumeral =>
      obtain ⟨number, isValue⟩ := Numeral.exists_read?_of_isNumeral isNumeral
      exact ⟨.value number, by simp [leafExpression?, isValue]⟩
  | freeVariable => exact ⟨_, rfl⟩
  | constant => exact ⟨_, rfl⟩
  | openParen | closeParen | derivative | function | operator =>
      simp [Kind.isAtom] at isAtom

theorem isAtom_of_leafExpression? {token : Token} {expression : Expression}
    (stands : leafExpression? token = some expression) :
    token.kind.isAtom = true := by
  unfold leafExpression? at stands
  split at stands <;> simp_all [Kind.isAtom]

/-- Postfix tokens are read back in one way only. -/
theorem writing_append_inj {first second : Token.Tree}
    {firstExpression secondExpression : Expression}
    (isFirst : first.expression? = some firstExpression)
    (isSecond : second.expression? = some secondExpression)
    {firstRest secondRest : List Token}
    (same : first.writing.reverse ++ firstRest =
      second.writing.reverse ++ secondRest) :
    first = second ∧ firstRest = secondRest := by
  induction first generalizing second firstExpression secondExpression
    firstRest secondRest with
  | leaf token =>
      have isAtom := isAtom_of_leafExpression? isFirst
      rw [reverse_writing_leaf] at same
      cases second with
      | leaf other =>
          rw [reverse_writing_leaf] at same
          simpa using same
      | operation other left right =>
          obtain ⟨operator, -, -, isOperator, -⟩ :=
            expression?_operation_eq_some_iff.mp isSecond
          rw [reverse_writing_operation] at same
          rw [(List.cons.inj same).1, isOperator] at isAtom
          contradiction
      | application other argument =>
          obtain ⟨isFunction, -⟩ :=
            expression?_application_eq_some_iff.mp isSecond
          rw [reverse_writing_application] at same
          rw [(List.cons.inj same).1, isFunction] at isAtom
          contradiction
  | operation token left right leftIH rightIH =>
      obtain
          ⟨operator, firstLeft, firstRight, isOperator, isLeft, isRight, -⟩ :=
        expression?_operation_eq_some_iff.mp isFirst
      rw [reverse_writing_operation] at same
      cases second with
      | leaf other =>
          have isAtom := isAtom_of_leafExpression? isSecond
          rw [reverse_writing_leaf] at same
          rw [← (List.cons.inj same).1, isOperator] at isAtom
          contradiction
      | operation other otherLeft otherRight =>
          obtain
              ⟨-, secondLeft, secondRight, -, isOtherLeft, isOtherRight, -⟩ :=
            expression?_operation_eq_some_iff.mp isSecond
          rw [reverse_writing_operation] at same
          obtain ⟨sameToken, sameBefore⟩ := List.cons.inj same
          obtain ⟨sameRight, sameLeft⟩ :=
            rightIH isRight isOtherRight sameBefore
          obtain ⟨sameLeft, sameRest⟩ := leftIH isLeft isOtherLeft sameLeft
          exact ⟨by rw [sameToken, sameLeft, sameRight], sameRest⟩
      | application other argument =>
          obtain ⟨isFunction, -⟩ :=
            expression?_application_eq_some_iff.mp isSecond
          rw [reverse_writing_application] at same
          rw [(List.cons.inj same).1, isFunction] at isOperator
          contradiction
  | application token argument ih =>
      obtain ⟨isFunction, operand, isOperand, -⟩ :=
        expression?_application_eq_some_iff.mp isFirst
      rw [reverse_writing_application] at same
      cases second with
      | leaf other =>
          have isAtom := isAtom_of_leafExpression? isSecond
          rw [reverse_writing_leaf] at same
          rw [← (List.cons.inj same).1, isFunction] at isAtom
          contradiction
      | operation other left right =>
          obtain ⟨operator, -, -, isOperator, -⟩ :=
            expression?_operation_eq_some_iff.mp isSecond
          rw [reverse_writing_operation] at same
          rw [(List.cons.inj same).1, isOperator] at isFunction
          contradiction
      | application other otherArgument =>
          obtain ⟨-, otherOperand, isOtherOperand, -⟩ :=
            expression?_application_eq_some_iff.mp isSecond
          rw [reverse_writing_application] at same
          obtain ⟨sameToken, sameBefore⟩ := List.cons.inj same
          obtain ⟨sameArgument, sameRest⟩ :=
            ih isOperand isOtherOperand sameBefore
          exact ⟨by rw [sameToken, sameArgument], sameRest⟩

theorem writing_inj {first second : Token.Tree}
    {firstExpression secondExpression : Expression}
    (isFirst : first.expression? = some firstExpression)
    (isSecond : second.expression? = some secondExpression)
    (same : first.writing = second.writing) : first = second := by
  have sameReading : first.writing.reverse ++ [] =
      second.writing.reverse ++ [] := by rw [same]
  exact (writing_append_inj isFirst isSecond sameReading).1

/-- No parenthesis is left in the writing of a tree. -/
theorem openings_writing {tree : Token.Tree} {expression : Expression}
    (stands : tree.expression? = some expression) :
    openings tree.writing = 0 := by
  induction tree generalizing expression with
  | leaf token =>
      have isAtom := isAtom_of_leafExpression? stands
      have notOpening : token.kind ≠ .openParen := by
        rintro isOpening
        rw [isOpening] at isAtom
        contradiction
      simp [writing, notOpening]
  | operation token left right leftIH rightIH =>
      obtain ⟨operator, first, second, isOperator, isFirst, isSecond, -⟩ :=
        expression?_operation_eq_some_iff.mp stands
      simp [writing, leftIH isFirst, rightIH isSecond, isOperator]
  | application token argument ih =>
      obtain ⟨isFunction, operand, isOperand, -⟩ :=
        expression?_application_eq_some_iff.mp stands
      simp [writing, ih isOperand, isFunction]

end Token.Tree

/-- The tree of spelled tokens stands for an expression. -/
theorem Derives.exists_expression? {level : Level} {tokens : List Token}
    {tree : Token.Tree} (derives : Derives level tokens tree)
    (spelled : ∀ token ∈ tokens, token.IsSpelled) :
    ∃ expression, tree.expression? = some expression := by
  induction derives with
  | operand isAtom =>
      exact Token.Tree.exists_leafExpression?
        (spelled _ List.mem_cons_self) isAtom
  | group isOpening isClosing inside ih =>
      exact ih fun token member => spelled token (by simp [member])
  | application isFunction isOpening isClosing inside ih =>
      obtain ⟨operand, isOperand⟩ :=
        ih fun token member => spelled token (by simp [member])
      exact ⟨_, Token.Tree.expression?_application_eq_some_iff.mpr
        ⟨isFunction, operand, isOperand, rfl⟩⟩
  | tighter operand ih => exact ih spelled
  | operation first isOperator isOfLevel second firstIH secondIH =>
      obtain ⟨left, isLeft⟩ :=
        firstIH fun token member => spelled token (by simp [member])
      obtain ⟨right, isRight⟩ :=
        secondIH fun token member => spelled token (by simp [member])
      exact ⟨_, Token.Tree.expression?_operation_eq_some_iff.mpr
        ⟨_, left, right, isOperator, isLeft, isRight, rfl⟩⟩
  | juxtaposition first isLast isAtom isNext notNumbers second firstIH
      secondIH =>
      obtain ⟨left, isLeft⟩ :=
        firstIH fun token member => spelled token (by simp [member])
      obtain ⟨right, isRight⟩ :=
        secondIH fun token member => spelled token (by simp [member])
      exact ⟨_, Token.Tree.expression?_operation_eq_some_iff.mpr
        ⟨.times, left, right, rfl, isLeft, isRight, rfl⟩⟩

theorem DerivesWhole.exists_expression? {tokens : List Token}
    {tree : Token.Tree} (derives : DerivesWhole tokens tree)
    (spelled : ∀ token ∈ tokens, token.IsSpelled) :
    ∃ expression, tree.expression? = some expression := by
  induction derives with
  | term first => exact first.exists_expression? spelled
  | @negated minus tokens tree isMinus first =>
      obtain ⟨right, isRight⟩ := first.exists_expression?
        fun token member => spelled token (by simp [member])
      have isZero : IsNumeral ['0'] := .whole (by simp) (by simp)
      obtain ⟨zero, isLeft⟩ := Token.Tree.exists_leafExpression?
        (Token.IsSpelled.numeral minus.position isZero) rfl
      exact ⟨_, Token.Tree.expression?_operation_eq_some_iff.mpr
        ⟨.minus, zero, right, isMinus, isLeft, isRight, rfl⟩⟩
  | operation first isOperator isOfLevel second ih =>
      obtain ⟨left, isLeft⟩ :=
        ih fun token member => spelled token (by simp [member])
      obtain ⟨right, isRight⟩ := second.exists_expression?
        fun token member => spelled token (by simp [member])
      exact ⟨_, Token.Tree.expression?_operation_eq_some_iff.mpr
        ⟨_, left, right, isOperator, isLeft, isRight, rfl⟩⟩

end GraphingCalculator
