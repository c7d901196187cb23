import GraphingCalculator.Proofs.Grammar.Balance

/-!
# Readable tokens derive from the grammar

Readable tokens are recognised from left to right.  What was read so far is kept
as a sum, a product and a power that are still open, each waiting for an operand
of the level below it.  An atom completes all three, and the token after it says
which of them is opened again.
-/

namespace GraphingCalculator

/-- Tokens that are an expression of a level. -/
def DerivesAs (level : Level) (tokens : List Token) : Prop :=
  ∃ tree, Derives level tokens tree

/-- Tokens that become what is wanted once an operand of a level follows. -/
def Awaits (level : Level) (wanted : List Token → Prop)
    (before : List Token) : Prop :=
  ∀ tokens tree, Derives level tokens tree →
    (before ++ tokens).IsChain Token.Fits → wanted (before ++ tokens)

/-- What is wanted can be continued by another term. -/
def TakesTerms (wanted : List Token → Prop) : Prop :=
  ∀ before token operator, wanted before → token.kind = .operator operator →
    operator ∈ Level.sum.operators → Awaits .product wanted (before ++ [token])

/-- The tokens in front of an atom: a sum, a product and a power that wait for
their next operand. -/
def Expects (wanted : List Token → Prop) (before : List Token) : Prop :=
  ∃ sum product power, before = sum ++ (product ++ power) ∧
    Awaits .product wanted sum ∧ Awaits .power (DerivesAs .product) product ∧
      Awaits .atom (DerivesAs .power) power

/-- The tokens up to the end of an atom: a sum and a product that wait for their
next operand, and a power that can be that operand. -/
def Completes (wanted : List Token → Prop) (before : List Token) : Prop :=
  ∃ sum product power, before = sum ++ (product ++ power) ∧
    Awaits .product wanted sum ∧ Awaits .power (DerivesAs .product) product ∧
      DerivesAs .power power

variable {wanted : List Token → Prop} {before : List Token}

theorem awaits_nil (level : Level) :
    Awaits level.tighter (DerivesAs level) [] :=
  fun _ tree derives _ => ⟨tree, .tighter derives⟩

theorem DerivesAs.awaits {level : Level} {token : Token} {operator : Operator}
    (derives : DerivesAs level before)
    (isOperator : token.kind = .operator operator)
    (isOfLevel : operator ∈ level.operators) :
    Awaits level.tighter (DerivesAs level) (before ++ [token]) := by
  obtain ⟨left, first⟩ := derives
  intro tokens right second _
  refine ⟨.operation token left right, ?_⟩
  rw [List.append_assoc]
  exact .operation first isOperator isOfLevel second

/-- An operand of a product waits for the next one even without an operator,
as far as the tokens between them fit. -/
theorem DerivesAs.awaits_juxtaposed (derives : DerivesAs .product before) :
    Awaits .power (DerivesAs .product) before := by
  obtain ⟨left, first⟩ := derives
  intro tokens right second fits
  obtain ⟨last, isLast, ends⟩ := first.exists_last
  obtain ⟨next, rest, rfl, begins⟩ := second.exists_first
  have fitsNext : last.Fits next :=
    (List.isChain_append.mp fits).2.2 last isLast next rfl
  obtain ⟨isAtom, notNumbers⟩ :=
    (Token.fits_iff_of_juxtaposed ends begins).mp fitsNext
  exact ⟨_, .juxtaposition first isLast isAtom rfl notNumbers second⟩

theorem takesTerms_sum : TakesTerms (DerivesAs .sum) :=
  fun _ _ _ derives isOperator isOfLevel => derives.awaits isOperator isOfLevel

theorem takesTerms_whole :
    TakesTerms fun tokens => ∃ tree, DerivesWhole tokens tree := by
  intro before token operator ⟨left, first⟩ isOperator isOfLevel tokens right
    second _
  refine ⟨.operation token left right, ?_⟩
  rw [List.append_assoc]
  exact .operation first isOperator isOfLevel second

theorem Awaits.expects (awaits : Awaits .product wanted before) :
    Expects wanted before :=
  ⟨before, [], [], by simp, awaits, awaits_nil .product, awaits_nil .power⟩

/-- An atom completes what was expected. -/
theorem Expects.completes (expects : Expects wanted before)
    {tokens : List Token} {tree : Token.Tree}
    (atom : Derives .atom tokens tree)
    (fits : (before ++ tokens).IsChain Token.Fits) :
    Completes wanted (before ++ tokens) := by
  obtain ⟨sum, product, power, rfl, awaitsSum, awaitsProduct, awaitsPower⟩ :=
    expects
  rw [List.append_assoc, List.append_assoc] at fits
  exact ⟨sum, product, power ++ tokens, by simp, awaitsSum, awaitsProduct,
    awaitsPower tokens tree atom fits.right_of_append.right_of_append⟩

theorem Completes.exists_product (completes : Completes wanted before)
    (fits : before.IsChain Token.Fits) :
    ∃ sum product, before = sum ++ product ∧ Awaits .product wanted sum ∧
      DerivesAs .product product := by
  obtain ⟨sum, product, power, rfl, awaitsSum, awaitsProduct, tree, derives⟩ :=
    completes
  exact ⟨sum, product ++ power, by simp, awaitsSum, awaitsProduct power tree
    derives fits.right_of_append⟩

theorem Completes.isWanted (completes : Completes wanted before)
    (fits : before.IsChain Token.Fits) : wanted before := by
  obtain ⟨sum, product, rfl, awaitsSum, tree, derives⟩ :=
    completes.exists_product fits
  exact awaitsSum product tree derives fits

/-- An operator opens the sum, the product or the power again. -/
theorem Completes.expects_operator (completes : Completes wanted before)
    (fits : before.IsChain Token.Fits) (takes : TakesTerms wanted)
    {token : Token} {operator : Operator}
    (isOperator : token.kind = .operator operator) :
    Expects wanted (before ++ [token]) := by
  have isOfLevel : operator ∈ Level.sum.operators ∨
      operator ∈ Level.product.operators ∨
        operator ∈ Level.power.operators := by
    cases operator <;> simp [Level.operators]
  rcases isOfLevel with ofSum | ofProduct | ofPower
  · exact (takes before token operator (completes.isWanted fits) isOperator
      ofSum).expects
  · obtain ⟨sum, product, rfl, awaitsSum, derives⟩ :=
      completes.exists_product fits
    exact ⟨sum, product ++ [token], [], by simp, awaitsSum,
      derives.awaits isOperator ofProduct, awaits_nil .power⟩
  · obtain ⟨sum, product, power, rfl, awaitsSum, awaitsProduct, derives⟩ :=
      completes
    exact ⟨sum, product, power ++ [token], by simp, awaitsSum, awaitsProduct,
      derives.awaits isOperator ofPower⟩

theorem Completes.expects_juxtaposed (completes : Completes wanted before)
    (fits : before.IsChain Token.Fits) : Expects wanted before := by
  obtain ⟨sum, product, rfl, awaitsSum, derives⟩ :=
    completes.exists_product fits
  exact ⟨sum, product, [], by simp, awaitsSum, derives.awaits_juxtaposed,
    awaits_nil .power⟩

/-- A derivation opens and closes as many parentheses. -/
theorem Derives.openings_eq {level : Level} {tokens : List Token}
    {tree : Token.Tree} (derives : Derives level tokens tree) :
    openings tokens = closings tokens := by
  induction derives with
  | @operand token isAtom =>
      cases isKind : token.kind <;> simp_all [Token.Kind.isAtom]
  | group isOpening isClosing inside ih => simp [isOpening, isClosing, ih]
  | application isFunction isOpening isClosing inside ih =>
      simp [isFunction, isOpening, isClosing, ih]
  | tighter operand ih => exact ih
  | operation first isOperator isOfLevel second firstIH secondIH =>
      simp [isOperator, firstIH, secondIH]
  | juxtaposition first isLast isAtom isNext notNumbers second firstIH
      secondIH =>
      rw [openings_append, closings_append, firstIH, secondIH]

namespace Token

theorem IsReadable.suffix (front : List Token) {rest : List Token}
    (readable : IsReadable (front ++ rest)) : IsReadable rest where
  neighbours := readable.neighbours.suffix ⟨front, rfl⟩
  ends last isLast := by
    refine readable.ends last ?_
    rw [Option.mem_def] at isLast ⊢
    rw [List.getLast?_append, isLast]
    rfl
  closed suffix isSuffix :=
    readable.closed suffix (isSuffix.trans ⟨front, rfl⟩)

theorem IsReadable.tail {first : Token} {rest : List Token}
    (readable : IsReadable (first :: rest)) : IsReadable rest :=
  IsReadable.suffix [first] readable

/-- Something follows a token that cannot be the last one. -/
theorem IsReadable.exists_next {first : Token} {rest : List Token}
    (readable : IsReadable (first :: rest))
    (continues : first.kind.endsOperand = false) :
    ∃ next more, rest = next :: more ∧ first.Precedes next := by
  cases rest with
  | nil =>
      have ends := readable.ends first rfl
      rw [continues] at ends
      contradiction
  | cons next more =>
      exact ⟨next, more, rfl, (List.isChain_cons_cons.mp readable.neighbours).1⟩

theorem IsReadable.fits {tokens : List Token} (readable : IsReadable tokens) :
    tokens.IsChain Fits :=
  readable.neighbours.imp fun _ _ precedes => precedes.fits

theorem Precedes.begins_of_isOperator {first second : Token}
    {operator : Operator} (precedes : first.Precedes second)
    (isOperator : first.kind = .operator operator) :
    second.kind.beginsOperand = true := by
  obtain ⟨fits, notMissing⟩ := precedes
  rw [Fits, isOperator] at fits
  cases isKind : second.kind <;>
    simp_all [pairFault?, Kind.beginsOperand, Kind.isOperator]

theorem Precedes.begins_of_isOpening {first second : Token}
    (precedes : first.Precedes second) (isOpening : first.kind = .openParen) :
    second.kind.beginsOperand = true := by
  have fits := precedes.fits
  rw [Fits, isOpening] at fits
  cases isKind : second.kind <;> simp_all [pairFault?, Kind.beginsOperand]

theorem Precedes.isOpening_of_isFunction {first second : Token}
    (precedes : first.Precedes second) (isFunction : first.kind = .function) :
    second.kind = .openParen := by
  have fits := precedes.fits
  rw [Fits, isFunction] at fits
  by_contra notOpening
  simp [pairFault?, notOpening] at fits

end Token

open Token

/-- Where an atom is expected, readable tokens of a bounded length continue to
what is wanted, up to the end or a closing parenthesis. -/
def Recognises (bound : Nat) : Prop :=
  ∀ (wanted : List Token → Prop) (before : List Token) (first : Token)
    (rest : List Token), (first :: rest).length ≤ bound → TakesTerms wanted →
    Expects wanted before → (before ++ first :: rest).IsChain Fits →
    IsReadable (first :: rest) → first.kind.beginsOperand = true →
    ∃ tokens after, first :: rest = tokens ++ after ∧
      wanted (before ++ tokens) ∧
        ∀ next ∈ after.head?, next.kind = .closeParen

variable {bound : Nat}

/-- After an opening parenthesis stands a sum, and then the parenthesis that
closes it. -/
theorem exists_inside (recognises : Recognises bound) {opening : Token}
    {rest : List Token} (short : rest.length ≤ bound)
    (readable : IsReadable (opening :: rest))
    (isOpening : opening.kind = .openParen) :
    ∃ tokens tree closing after, rest = tokens ++ closing :: after ∧
      closing.kind = .closeParen ∧ Derives .sum tokens tree := by
  obtain ⟨next, more, rfl, precedes⟩ :=
    readable.exists_next (by rw [isOpening]; rfl)
  have inner : IsReadable (next :: more) := readable.tail
  obtain ⟨tokens, after, isRest, ⟨tree, derives⟩, closes⟩ :=
    recognises (DerivesAs .sum) [] next more short takesTerms_sum
      (Awaits.expects (awaits_nil .sum)) inner.fits inner
      (precedes.begins_of_isOpening isOpening)
  rw [List.nil_append] at derives
  cases after with
  | nil =>
      -- Without a closing parenthesis the opening one would stay open.
      have closed := readable.closed (opening :: next :: more) List.suffix_rfl
      rw [isRest, List.append_nil] at closed
      have balanced := derives.openings_eq
      simp [isOpening] at closed
      omega
  | cons closing after =>
      exact ⟨tokens, tree, closing, after, isRest, closes closing rfl, derives⟩

/-- Readable tokens start with an atom, if they start like one. -/
theorem exists_atom (recognises : Recognises bound) {first : Token}
    {rest : List Token} (short : rest.length ≤ bound)
    (readable : IsReadable (first :: rest))
    (begins : first.kind.beginsOperand = true) :
    ∃ next tokens tree after, first :: rest = next :: tokens ++ after ∧
      Derives .atom (next :: tokens) tree := by
  by_cases isAtom : first.kind.isAtom = true
  · exact ⟨first, [], _, rest, rfl, .operand isAtom⟩
  by_cases isOpening : first.kind = .openParen
  · obtain ⟨tokens, tree, closing, after, rfl, isClosing, derives⟩ :=
      exists_inside recognises short readable isOpening
    exact ⟨first, tokens ++ [closing], tree, after, by simp,
      .group isOpening isClosing derives⟩
  have isFunction : first.kind = .function := by
    cases isKind : first.kind <;> simp_all [Kind.isAtom, Kind.beginsOperand]
  obtain ⟨opening, more, rfl, precedes⟩ :=
    readable.exists_next (by rw [isFunction]; rfl)
  have isOpening := precedes.isOpening_of_isFunction isFunction
  rw [List.length_cons] at short
  obtain ⟨tokens, tree, closing, after, rfl, isClosing, derives⟩ :=
    exists_inside recognises (by omega) readable.tail isOpening
  exact ⟨first, opening :: (tokens ++ [closing]), _, after, by simp,
    .application isFunction isOpening isClosing derives⟩

/-- After an atom, the next token decides what it is an operand of. -/
theorem exists_wanted_of_completes (recognises : Recognises bound)
    {rest : List Token} (short : rest.length ≤ bound)
    (takes : TakesTerms wanted) (completes : Completes wanted before)
    (fits : (before ++ rest).IsChain Fits) (readable : IsReadable rest) :
    ∃ tokens after, rest = tokens ++ after ∧ wanted (before ++ tokens) ∧
      ∀ next ∈ after.head?, next.kind = .closeParen := by
  have fitsBefore := fits.left_of_append
  cases rest with
  | nil =>
      exact ⟨[], [], rfl, by simpa using completes.isWanted fitsBefore,
        by simp⟩
  | cons first rest =>
      by_cases isClosing : first.kind = .closeParen
      · refine ⟨[], first :: rest, rfl,
          by simpa using completes.isWanted fitsBefore, ?_⟩
        intro next isNext
        cases isNext
        exact isClosing
      by_cases begins : first.kind.beginsOperand = true
      · exact recognises wanted before first rest short takes
          (completes.expects_juxtaposed fitsBefore) fits readable begins
      obtain ⟨operator, isOperator⟩ :
          ∃ operator, first.kind = .operator operator := by
        cases isKind : first.kind <;> simp_all [Kind.beginsOperand]
      obtain ⟨next, more, rfl, precedes⟩ :=
        readable.exists_next (by rw [isOperator]; rfl)
      rw [List.length_cons] at short
      obtain ⟨tokens, after, isRest, isWanted, closes⟩ :=
        recognises wanted (before ++ [first]) next more (by omega) takes
          (completes.expects_operator fitsBefore takes isOperator)
          (by simpa using fits) readable.tail
          (precedes.begins_of_isOperator isOperator)
      exact ⟨first :: tokens, after, by rw [isRest]; rfl,
        by simpa using isWanted, closes⟩

theorem recognises (bound : Nat) : Recognises bound := by
  induction bound with
  | zero => simp [Recognises]
  | succ bound ih =>
      intro wanted before first rest short takes expects fits readable begins
      rw [List.length_cons] at short
      obtain ⟨next, atom, tree, after, isRest, derives⟩ :=
        exists_atom ih (by omega) readable begins
      rw [isRest] at fits readable
      rw [← List.append_assoc] at fits
      have lengths := congrArg List.length isRest
      simp only [List.length_cons, List.length_append] at lengths
      obtain ⟨tokens, remaining, rfl, isWanted, closes⟩ :=
        exists_wanted_of_completes ih (by omega) takes
          (expects.completes derives fits.left_of_append) fits
          (IsReadable.suffix _ readable)
      exact ⟨next :: atom ++ tokens, remaining, by simpa using isRest,
        by simpa using isWanted, closes⟩

theorem DerivesWhole.openings_eq {tokens : List Token} {tree : Token.Tree}
    (derives : DerivesWhole tokens tree) :
    openings tokens = closings tokens := by
  induction derives with
  | term first => exact first.openings_eq
  | negated isMinus first =>
      simp [isMinus, first.openings_eq]
  | operation first isOperator isOfLevel second ih =>
      simp [isOperator, ih, second.openings_eq]

/-- Readable tokens that begin like an expression are one, provided that no
parenthesis is closed that is not open. -/
theorem exists_derivesWhole {first : Token} {rest : List Token}
    (readable : IsReadable (first :: rest))
    (opened : ∀ front, front <+: first :: rest →
      closings front ≤ openings front)
    (begins : first.kind.beginsOperand = true ∨
      first.kind = .operator .minus) :
    ∃ tree, DerivesWhole (first :: rest) tree := by
  have ended {tokens after : List Token}
      (isTokens : first :: rest = tokens ++ after)
      (isWhole : ∃ tree, DerivesWhole tokens tree)
      (closes : ∀ next ∈ after.head?, next.kind = .closeParen) :
      ∃ tree, DerivesWhole (first :: rest) tree := by
    cases after with
    | nil => rwa [isTokens, List.append_nil]
    | cons closing after =>
        -- This parenthesis would close one that is not open.
        obtain ⟨tree, derives⟩ := isWhole
        have isOpened := opened (tokens ++ [closing])
          ⟨after, by simpa using isTokens.symm⟩
        have balanced := derives.openings_eq
        simp [closes closing rfl] at isOpened
        omega
  rcases begins with begins | isMinus
  · obtain ⟨tokens, after, isTokens, isWhole, closes⟩ :=
      recognises _ (fun tokens => ∃ tree, DerivesWhole tokens tree) [] first
        rest (Nat.le_refl _) takesTerms_whole
        (Awaits.expects fun _ tree derives _ => ⟨tree, .term derives⟩)
        readable.fits readable begins
    exact ended isTokens isWhole closes
  · obtain ⟨next, more, rfl, precedes⟩ :=
      readable.exists_next (by rw [isMinus]; rfl)
    obtain ⟨tokens, after, isTokens, isWhole, closes⟩ :=
      recognises _ (fun tokens => ∃ tree, DerivesWhole tokens tree) [first]
        next more (Nat.le_refl _) takesTerms_whole
        (Awaits.expects fun _ _ derives _ => ⟨_, .negated isMinus derives⟩)
        readable.fits readable.tail (precedes.begins_of_isOperator isMinus)
    exact ended (by rw [isTokens]; rfl) isWhole closes

end GraphingCalculator
