import GraphingCalculator.Proofs.Grammar.Balance
import GraphingCalculator.Proofs.Source.Spelling

/-!
# The checks on characters accept what the grammar accepts

Before a source is split into tokens its characters are checked.  The checks
refuse nothing that the checks on tokens would accept: a text that spells tokens
with balanced parentheses, whose neighbours fit and which end an operand, passes
all of them.
-/

namespace GraphingCalculator
namespace Source

variable {text : Text} {tokens : List Token}

theorem checkParentheses_append (noParentheses :
      ∀ character ∈ text, character ≠ '(' ∧ character ≠ ')')
    (position : Nat) (opened : List Nat) (rest : Text) :
    checkParentheses position opened (text ++ rest) =
      checkParentheses (position + Text.byteSize text) opened rest := by
  induction text generalizing position with
  | nil => rfl
  | cons character text ih =>
      obtain ⟨notOpening, notClosing⟩ :=
        noParentheses character List.mem_cons_self
      rw [List.cons_append]
      conv => lhs; unfold checkParentheses
      simp only [notOpening, notClosing, if_false]
      rw [ih fun other member =>
        noParentheses other (List.mem_cons_of_mem _ member)]
      rw [Text.byteSize_cons, Nat.add_assoc]

/-- The stack of the check holds the parentheses that are open, and so it fits
the tokens that are still to be read. -/
theorem checkParentheses_of_spells (spells : Spells text tokens)
    (position : Nat) (opened : List Nat)
    (neverMore : ∀ front, front <+: tokens →
      closings front ≤ opened.length + openings front)
    (balanced : closings tokens = opened.length + openings tokens) :
    checkParentheses position opened text = .ok () := by
  induction spells generalizing position opened with
  | nil =>
      have nothing : opened = [] := by
        simpa [eq_comm] using balanced
      rw [nothing]
      rfl
  | @blank character text tokens white rest ih =>
      have noParentheses : ∀ other ∈ [character],
          other ≠ '(' ∧ other ≠ ')' := by
        intro other member
        rw [List.mem_singleton] at member
        subst member
        constructor <;> rintro rfl <;> contradiction
      rw [← List.singleton_append, checkParentheses_append noParentheses]
      exact ih _ opened neverMore balanced
  | @token token text tokens spelled rest ih =>
      have restNeverMore (inner : List Nat)
          (same : inner.length + closings [token] =
            opened.length + openings [token]) :
          ∀ front, front <+: tokens →
            closings front ≤ inner.length + openings front := by
        intro front isFront
        have bound := neverMore (token :: front)
          ((List.prefix_cons_inj token).mpr isFront)
        simp only [openings_cons, closings_cons, openings_nil, closings_nil]
          at bound same
        omega
      have restBalanced (inner : List Nat)
          (same : inner.length + closings [token] =
            opened.length + openings [token]) :
          closings tokens = inner.length + openings tokens := by
        simp only [openings_cons, closings_cons, openings_nil, closings_nil]
          at balanced same
        omega
      have skips (noParentheses : ∀ character ∈ token.text,
            character ≠ '(' ∧ character ≠ ')')
          (notOpening : token.kind ≠ .openParen)
          (notClosing : token.kind ≠ .closeParen) :
          checkParentheses position opened (token.text ++ text) = .ok () := by
        rw [checkParentheses_append noParentheses]
        have same : opened.length + closings [token] =
            opened.length + openings [token] := by
          simp [notOpening, notClosing]
        exact ih _ opened (restNeverMore opened same) (restBalanced opened same)
      rcases spelled.cases_text with
        ⟨-, plain, notOpening, notClosing, -⟩ | ⟨isFunction, isText⟩ |
          ⟨isOpening, isText⟩ | ⟨isClosing, isText⟩ |
            ⟨operator, isOperator, isText⟩
      · exact skips (fun character member =>
          ne_parenthesis_of_isPlain (plain character member)) notOpening
          notClosing
      · refine skips ?_ (by simp [isFunction]) (by simp [isFunction])
        rw [isText]
        simp [derivativeName]
      · rw [isText]
        have same : (position :: opened).length + closings [token] =
            opened.length + openings [token] := by
          simp [isOpening]
        exact ih _ _ (restNeverMore _ same) (restBalanced _ same)
      · rw [isText]
        cases opened with
        | nil =>
            have bound := neverMore [token] ⟨tokens, rfl⟩
            simp [isClosing] at bound
        | cons innermost outer =>
            have same : outer.length + closings [token] =
                (innermost :: outer).length + openings [token] := by
              simp [isClosing]
            exact ih _ _ (restNeverMore _ same) (restBalanced _ same)
      · refine skips ?_ (by simp [isOperator]) (by simp [isOperator])
        rw [isText]
        cases operator <;> simp [Operator.toChar]

/-- What passes the check spells balanced tokens: none of their parentheses is
closed before it is open, and all of them are closed in the end. -/
theorem balanced_of_checkParentheses (spells : Spells text tokens)
    {position : Nat} {opened : List Nat}
    (checks : checkParentheses position opened text = .ok ()) :
    (∀ front, front <+: tokens →
        closings front ≤ opened.length + openings front) ∧
      closings tokens = opened.length + openings tokens := by
  induction spells generalizing position opened with
  | nil =>
      cases opened with
      | nil => simp
      | cons innermost outer => contradiction
  | @blank character text tokens white rest ih =>
      have noParentheses : ∀ other ∈ [character],
          other ≠ '(' ∧ other ≠ ')' := by
        intro other member
        rw [List.mem_singleton] at member
        subst member
        constructor <;> rintro rfl <;> contradiction
      rw [← List.singleton_append, checkParentheses_append noParentheses]
        at checks
      exact ih checks
  | @token token text tokens spelled rest ih =>
      -- It is enough to know the stack after this token.
      have continues {next : Nat} {inner : List Nat}
          (checksRest : checkParentheses next inner text = .ok ())
          (same : inner.length + closings [token] =
            opened.length + openings [token]) :
          (∀ front, front <+: token :: tokens →
              closings front ≤ opened.length + openings front) ∧
            closings (token :: tokens) =
              opened.length + openings (token :: tokens) := by
        obtain ⟨neverMore, balanced⟩ := ih checksRest
        simp only [openings_cons, closings_cons, openings_nil, closings_nil]
          at same ⊢
        refine ⟨fun front isFront => ?_, by omega⟩
        rcases List.prefix_cons_iff.mp isFront with rfl | ⟨inner, rfl, isInner⟩
        · simp
        · have bound := neverMore inner isInner
          rw [openings_cons, closings_cons]
          omega
      have skips (noParentheses : ∀ character ∈ token.text,
            character ≠ '(' ∧ character ≠ ')')
          (notOpening : token.kind ≠ .openParen)
          (notClosing : token.kind ≠ .closeParen) := by
        rw [checkParentheses_append noParentheses] at checks
        exact continues checks
          (by simp [notOpening, notClosing])
      rcases spelled.cases_text with
        ⟨-, plain, notOpening, notClosing, -⟩ | ⟨isFunction, isText⟩ |
          ⟨isOpening, isText⟩ | ⟨isClosing, isText⟩ |
            ⟨operator, isOperator, isText⟩
      · exact skips (fun character member =>
          ne_parenthesis_of_isPlain (plain character member)) notOpening
          notClosing
      · refine skips ?_ (by simp [isFunction]) (by simp [isFunction])
        rw [isText]
        simp [derivativeName]
      · rw [isText] at checks
        exact continues checks (by simp [isOpening])
      · rw [isText] at checks
        cases opened with
        | nil => contradiction
        | cons innermost outer =>
            exact continues checks (by simp [isClosing])
      · refine skips ?_ (by simp [isOperator]) (by simp [isOperator])
        rw [isText]
        cases operator <;> simp [Operator.toChar]

/-- After a character that is no operator, nothing follows an operator. -/
theorem checkOperatorRuns_append (noOperator :
      ∀ character ∈ text, isOperatorCharacter character = false)
    (nonempty : text ≠ []) (position : Nat) (after : Bool) (rest : Text) :
    checkOperatorRuns position after (text ++ rest) =
      checkOperatorRuns (position + Text.byteSize text) false rest := by
  induction text generalizing position after with
  | nil => exact absurd rfl nonempty
  | cons character text ih =>
      have notOperator := noOperator character List.mem_cons_self
      rw [List.cons_append, checkOperatorRuns]
      simp only [notOperator, Bool.false_and, Bool.false_eq_true, if_false]
      cases text with
      | nil => rfl
      | cons next text =>
          rw [ih (fun other member =>
            noOperator other (List.mem_cons_of_mem _ member)) (by simp)]
          rw [Text.byteSize_cons character, Nat.add_assoc]

/-- Where neighbours fit, no operator stands directly after another one. -/
theorem checkOperatorRuns_of_spells (spells : Spells text tokens)
    (fits : tokens.IsChain Token.Fits) (position : Nat) (after : Bool)
    (starts : after = true → ∀ first ∈ tokens.head?,
      first.kind.isOperator = true → first.kind = .operator .minus) :
    checkOperatorRuns position after text = .ok () := by
  induction spells generalizing position after with
  | nil => rfl
  | @blank character text tokens white rest ih =>
      have notOperator : ∀ other ∈ [character],
          isOperatorCharacter other = false := by
        intro other member
        rw [List.mem_singleton] at member
        subst member
        rw [← Bool.not_eq_true]
        intro isOperator
        obtain ⟨operator, spelled⟩ := Option.isSome_iff_exists.mp isOperator
        rw [Segment.toChar_of_ofChar?_eq_some spelled] at white
        cases operator <;> contradiction
      rw [← List.singleton_append,
        checkOperatorRuns_append notOperator (by simp)]
      exact ih fits _ false (by simp)
  | @token token text tokens spelled rest ih =>
      rw [List.isChain_cons] at fits
      obtain ⟨fitsNext, fitsRest⟩ := fits
      rcases spelled.cases_text with
        ⟨nonempty, plain, -⟩ | ⟨isFunction, isText⟩ | ⟨isOpening, isText⟩ |
          ⟨isClosing, isText⟩ | ⟨operator, isOperator, isText⟩
      · rw [checkOperatorRuns_append (fun character member =>
          isOperatorCharacter_of_isPlain (plain character member)) nonempty]
        exact ih fitsRest _ false (by simp)
      · rw [isText]
        exact ih fitsRest _ false (by simp)
      · rw [isText]
        exact ih fitsRest _ false (by simp)
      · rw [isText]
        exact ih fitsRest _ false (by simp)
      · have restStarts : true = true → ∀ first ∈ tokens.head?,
            first.kind.isOperator = true → first.kind = .operator .minus := by
          intro _ next isNext isOperatorNext
          have fault := fitsNext next isNext
          rw [Token.Fits, isOperator] at fault
          cases isKind : next.kind with
          | operator other =>
              rw [isKind] at fault
              contradiction
          | _ =>
              rw [isKind] at isOperatorNext
              contradiction
        rw [isText, List.singleton_append, checkOperatorRuns]
        have isCharacter : isOperatorCharacter operator.toChar = true := by
          cases operator <;> rfl
        have passes : (after && operator.toChar != '-') = false := by
          cases after with
          | false => rfl
          | true =>
              have isMinus := starts rfl token rfl
                (by rw [isOperator]; rfl)
              rw [isOperator] at isMinus
              cases isMinus
              rfl
        simp only [isCharacter, Bool.true_and, passes, Bool.false_eq_true,
          if_false]
        exact ih fitsRest _ true restStarts

/-- The last character of a token is visible, and it is an operator only if the
token is one. -/
theorem exists_last_character {token : Token} (spelled : token.IsSpelled) :
    ∃ front last, token.text = front ++ [last] ∧ isBlank last = false ∧
      (isOperatorCharacter last = true → token.kind.isOperator = true) := by
  rcases spelled.cases_text with
    ⟨nonempty, plain, -⟩ | ⟨isFunction, isText⟩ | ⟨isOpening, isText⟩ |
      ⟨isClosing, isText⟩ | ⟨operator, isOperator, isText⟩
  · have isPlain := plain _ (List.getLast_mem nonempty)
    refine ⟨token.text.dropLast, token.text.getLast nonempty,
      (List.dropLast_append_getLast nonempty).symm,
      isBlank_of_isPlain isPlain, fun isCharacter => ?_⟩
    rw [isOperatorCharacter_of_isPlain isPlain] at isCharacter
    contradiction
  · exact ⟨['d', '/', 'd'], 'x', isText, rfl, fun impossible => by
      cases impossible⟩
  · exact ⟨[], '(', isText, rfl, fun impossible => by cases impossible⟩
  · exact ⟨[], ')', isText, rfl, fun impossible => by cases impossible⟩
  · exact ⟨[], operator.toChar, isText, by cases operator <;> rfl, fun _ => by
      rw [isOperator]
      rfl⟩

/-- The last visible character of a text belongs to its last token. -/
theorem exists_last_visible (spells : Spells text tokens) :
    (tokens = [] → ∀ character ∈ text, isBlank character = true) ∧
      ∀ token ∈ tokens.getLast?, ∃ front last blanks,
        text = front ++ last :: blanks ∧ isBlank last = false ∧
          (∀ character ∈ blanks, isBlank character = true) ∧
            (isOperatorCharacter last = true →
              token.kind.isOperator = true) := by
  induction spells with
  | nil => simp
  | @blank character text tokens white rest ih =>
      refine ⟨fun noTokens other member => ?_, fun token isLast => ?_⟩
      · rcases List.mem_cons.mp member with rfl | inText
        · exact white
        · exact ih.1 noTokens other inText
      · obtain ⟨front, last, blanks, rfl, visible⟩ := ih.2 token isLast
        exact ⟨character :: front, last, blanks, rfl, visible⟩
  | @token token text tokens spelled rest ih =>
      refine ⟨by simp, fun final isLast => ?_⟩
      cases tokens with
      | nil =>
          cases isLast
          obtain ⟨front, last, isText, notBlank, isOperator⟩ :=
            exists_last_character spelled
          exact ⟨front, last, text, by simp [isText], notBlank, ih.1 rfl,
            isOperator⟩
      | cons next tokens =>
          rw [List.getLast?_cons_cons] at isLast
          obtain ⟨front, last, blanks, rfl, visible⟩ := ih.2 final isLast
          exact ⟨token.text ++ front, last, blanks, by simp, visible⟩

theorem trimEnd_eq {front blanks : Text} {last : Char}
    (visible : isBlank last = false)
    (white : ∀ character ∈ blanks, isBlank character = true) :
    Text.trimEnd (front ++ last :: blanks) = front ++ [last] := by
  have reversed : (front ++ last :: blanks).reverse =
      blanks.reverse ++ last :: front.reverse := by
    simp
  rw [Text.trimEnd, reversed, List.dropWhile_append_of_pos
    fun character member => white character (List.mem_reverse.mp member)]
  simp [visible]

private theorem mem_dropWhile_isBlank {character : Char}
    (visible : isBlank character = false) (member : character ∈ text) :
    character ∈ text.dropWhile isBlank := by
  rw [← List.takeWhile_append_dropWhile (p := isBlank) (l := text)] at member
  rcases List.mem_append.mp member with inBlanks | later
  · have white := List.mem_takeWhile_imp inBlanks
    rw [visible] at white
    contradiction
  · exact later

theorem isEmpty_trim {character : Char} (visible : isBlank character = false)
    (member : character ∈ text) : (Text.trim text).isEmpty = false := by
  have kept : character ∈ Text.trim text := by
    rw [Text.trim, Text.trimEnd, List.mem_reverse]
    exact mem_dropWhile_isBlank visible
      (List.mem_reverse.mpr (mem_dropWhile_isBlank visible member))
  exact List.isEmpty_eq_false_iff.mpr (List.ne_nil_of_mem kept)

/-- A text that spells the tokens of an expression passes all checks. -/
theorem check_of_spells {last : Token} (spells : Spells text tokens)
    (fits : tokens.IsChain Token.Fits)
    (starts : ∀ first ∈ tokens.head?, first.kind.isOperator = true →
      first.kind = .operator .minus)
    (isLast : tokens.getLast? = some last)
    (ends : last.kind.endsOperand = true)
    (neverMore : ∀ front, front <+: tokens → closings front ≤ openings front)
    (balanced : closings tokens = openings tokens) :
    check text = .ok () := by
  have parentheses := checkParentheses_of_spells spells 0 []
    (by simpa using neverMore) (by simpa using balanced)
  have runs := checkOperatorRuns_of_spells spells fits 0 true fun _ => starts
  obtain ⟨front, final, blanks, isText, visible, white, isOperator⟩ :=
    (exists_last_visible spells).2 last isLast
  have notOperator : isOperatorCharacter final = false := by
    rw [← Bool.not_eq_true]
    intro isCharacter
    have lastOperator := isOperator isCharacter
    rw [Token.Kind.isOperator_of_endsOperand ends] at lastOperator
    contradiction
  have ended : checkEnd text = .ok () := by
    rw [checkEnd, isText, trimEnd_eq visible white]
    simp [notOperator]
  have nonempty : (Text.trim text).isEmpty = false := by
    exact isEmpty_trim visible (isText ▸ by simp)
  rw [check]
  simp only [nonempty, parentheses, runs, ended]
  rfl

end Source
end GraphingCalculator
