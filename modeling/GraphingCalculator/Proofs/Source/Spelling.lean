import GraphingCalculator.Proofs.Sequence
import GraphingCalculator.Proofs.Source.Reading

/-!
# Tokens spell their source

The tokens of a source stand in it one after the other, with blanks between
them.  Each kind of token is spelled in its own way, and the characters of names
and numerals are neither parentheses nor operators.
-/

namespace GraphingCalculator

/-- The text that goes with the kind of a token. -/
inductive Token.IsSpelled : Token → Prop
  | numeral {text : Text} (position : Nat) (isNumeral : IsNumeral text) :
      IsSpelled ⟨.number, text, position⟩
  | openParen (position : Nat) : IsSpelled ⟨.openParen, ['('], position⟩
  | closeParen (position : Nat) : IsSpelled ⟨.closeParen, [')'], position⟩
  | freeVariable (position : Nat) :
      IsSpelled ⟨.freeVariable, variableName, position⟩
  | derivative (position : Nat) :
      IsSpelled ⟨.function, derivativeName, position⟩
  | constant {text : Text} (position : Nat)
      (isName : isIdentifier text = true) :
      IsSpelled ⟨.constant, text, position⟩
  | function {text : Text} (position : Nat)
      (isName : isIdentifier text = true) :
      IsSpelled ⟨.function, text, position⟩
  | operator (operator : Operator) (position : Nat) :
      IsSpelled ⟨.operator operator, [operator.toChar], position⟩

/-- Tokens that stand in a text one after the other, with blanks between
them. -/
inductive Spells : Text → List Token → Prop
  | nil : Spells [] []
  | blank {character : Char} {text : Text} {tokens : List Token}
      (white : isBlank character = true) (rest : Spells text tokens) :
      Spells (character :: text) tokens
  | token {token : Token} {text : Text} {tokens : List Token}
      (spelled : token.IsSpelled) (rest : Spells text tokens) :
      Spells (token.text ++ text) (token :: tokens)

/-- A classification that takes names for constants and functions only. -/
def IsClassification (classify : Text → Option Token.Kind) : Prop :=
  ∀ name kind, classify name = some kind →
    kind = .constant ∨ kind = .function

theorem spells_of_readTokens {classify : Text → Option Token.Kind}
    (sound : IsClassification classify) {pieces : List (Nat × Segment)}
    (wellRead : ∀ piece ∈ pieces, piece.2.IsWellRead) {tokens : List Token}
    (reads : Source.readTokens classify pieces = .ok tokens) :
    Spells (pieces.flatMap fun piece => piece.2.text) tokens := by
  induction pieces generalizing tokens with
  | nil =>
      cases reads
      exact .nil
  | cons piece rest ih =>
      obtain ⟨position, segment⟩ := piece
      have wellReadRest : ∀ piece ∈ rest, piece.2.IsWellRead :=
        fun piece member => wellRead piece (List.mem_cons_of_mem _ member)
      have isWellRead : segment.IsWellRead := wellRead _ List.mem_cons_self
      have isToken {kind : Token.Kind} {text : Text}
          (spelled : (Token.mk kind text position).IsSpelled)
          (reads : (do
            let others ← Source.readTokens classify rest
            return Token.mk kind text position :: others) = .ok tokens) :
          Spells (text ++ rest.flatMap fun piece => piece.2.text) tokens := by
        obtain ⟨others, readsRest, reads⟩ := bind_eq_ok_iff.mp reads
        cases reads
        exact .token spelled (ih wellReadRest readsRest)
      rw [List.flatMap_cons]
      unfold Source.readTokens at reads
      cases isWellRead with
      | blank white => exact .blank white (ih wellReadRest reads)
      | numeral isNumeral => exact isToken (.numeral position isNumeral) reads
      | openParen => exact isToken (.openParen position) reads
      | closeParen => exact isToken (.closeParen position) reads
      | freeVariable => exact isToken (.freeVariable position) reads
      | derivative => exact isToken (.derivative position) reads
      | operator operator => exact isToken (.operator operator position) reads
      | identifier isName =>
          dsimp only at reads
          split at reads
          next kind known =>
              rcases sound _ _ known with rfl | rfl
              · exact isToken (.constant position isName) reads
              · exact isToken (.function position isName) reads
          next => contradiction
      | mistake => contradiction

/-- The tokens of a source spell it. -/
theorem spells_source {classify : Text → Option Token.Kind}
    (sound : IsClassification classify) {source : Text} {tokens : List Token}
    (reads : Source.readTokens classify (locate 0 (segments source)) =
      .ok tokens) : Spells source tokens := by
  have isSource : (locate 0 (segments source)).flatMap
      (fun piece => piece.2.text) = source := by
    calc (locate 0 (segments source)).flatMap (fun piece => piece.2.text)
        = ((locate 0 (segments source)).map Prod.snd).flatMap Segment.text :=
          List.flatMap_map .. |>.symm
      _ = source := by rw [map_snd_locate, flatMap_text_segments]
  rw [← isSource]
  exact spells_of_readTokens sound
    (fun _ => Segment.isWellRead_of_mem_locate) reads

/-- The characters of names and numerals. -/
def isPlain (character : Char) : Bool :=
  character.isDigit || character.isLower || character = '.'

theorem toNat_of_isLower {character : Char}
    (lower : character.isLower = true) :
    0x61 ≤ character.toNat ∧ character.toNat ≤ 0x7A := by
  have bounds : (decide ('a'.val ≤ character.val) &&
      decide (character.val ≤ 'z'.val)) = true := lower
  rw [Bool.and_eq_true, decide_eq_true_eq, decide_eq_true_eq] at bounds
  exact ⟨UInt32.le_iff_toNat_le.mp bounds.1,
    UInt32.le_iff_toNat_le.mp bounds.2⟩

theorem isBlank_of_isPlain {character : Char}
    (plain : isPlain character = true) : isBlank character = false := by
  have range : 46 ≤ character.toNat ∧ character.toNat ≤ 122 := by
    simp only [isPlain, Char.isDigit, Bool.or_eq_true, Bool.and_eq_true,
      decide_eq_true_eq, UInt32.le_iff_toNat_le] at plain
    rcases plain with (digit | lower) | rfl
    · have bounds : 48 ≤ character.toNat ∧ character.toNat ≤ 57 := digit
      omega
    · have bounds := toNat_of_isLower lower
      omega
    · decide
  simp [isBlank, blankCharacters, CharacterSet.contains]
  omega

theorem isOperatorCharacter_of_isPlain {character : Char}
    (plain : isPlain character = true) :
    isOperatorCharacter character = false := by
  rw [← Bool.not_eq_true]
  intro isOperator
  obtain ⟨operator, spelled⟩ := Option.isSome_iff_exists.mp isOperator
  rw [Segment.toChar_of_ofChar?_eq_some spelled] at plain
  cases operator <;> simp [isPlain, Operator.toChar] at plain

theorem ne_parenthesis_of_isPlain {character : Char}
    (plain : isPlain character = true) :
    character ≠ '(' ∧ character ≠ ')' := by
  constructor <;> rintro rfl <;> simp [isPlain] at plain

theorem isPlain_of_isNameCharacter {character : Char}
    (isName : isNameCharacter character = true) :
    isPlain character = true := by
  rw [isNameCharacter, Bool.or_eq_true] at isName
  rcases isName with lower | digit
  · simp [isPlain, lower]
  · simp [isPlain, digit]

theorem isPlain_of_isIdentifier {name : Text}
    (isName : isIdentifier name = true) :
    name ≠ [] ∧ ∀ character ∈ name, isPlain character = true := by
  refine ⟨ne_nil_of_isIdentifier isName, fun character member => ?_⟩
  cases name with
  | nil => simp at member
  | cons first rest =>
      rw [isIdentifier, Bool.and_eq_true, List.all_eq_true] at isName
      rcases List.mem_cons.mp member with rfl | inRest
      · simp [isPlain, isName.1]
      · exact isPlain_of_isNameCharacter (isName.2 character inRest)

theorem isPlain_of_isNumeral {text : Text} (isNumeral : IsNumeral text) :
    text ≠ [] ∧ ∀ character ∈ text, isPlain character = true := by
  cases isNumeral with
  | whole nonempty isDigit =>
      exact ⟨nonempty, fun character member => by
        simp [isPlain, isDigit character member]⟩
  | pointed nonempty wholeDigit fractionDigit =>
      refine ⟨by simp, fun character member => ?_⟩
      rcases List.mem_append.mp member with inWhole | later
      · simp [isPlain, wholeDigit character inWhole]
      · rcases List.mem_cons.mp later with rfl | inFraction
        · rfl
        · simp [isPlain, fractionDigit character inFraction]

/-- A token is spelled by plain characters, by the derivative, by a parenthesis
or by an operator. -/
theorem Token.IsSpelled.cases_text {token : Token}
    (spelled : token.IsSpelled) :
    (token.text ≠ [] ∧ (∀ character ∈ token.text, isPlain character = true) ∧
        token.kind ≠ .openParen ∧ token.kind ≠ .closeParen ∧
          token.kind.isOperator = false) ∨
      (token.kind = .function ∧ token.text = derivativeName) ∨
      (token.kind = .openParen ∧ token.text = ['(']) ∨
      (token.kind = .closeParen ∧ token.text = [')']) ∨
      ∃ operator, token.kind = .operator operator ∧
        token.text = [operator.toChar] := by
  cases spelled with
  | numeral position isNumeral =>
      obtain ⟨nonempty, plain⟩ := isPlain_of_isNumeral isNumeral
      exact .inl ⟨nonempty, plain, by simp, by simp, rfl⟩
  | freeVariable =>
      refine .inl ⟨by simp [variableName], ?_, by simp, by simp, rfl⟩
      simp [variableName, isPlain]
  | constant position isName | function position isName =>
      obtain ⟨nonempty, plain⟩ := isPlain_of_isIdentifier isName
      exact .inl ⟨nonempty, plain, by simp, by simp, rfl⟩
  | derivative => exact .inr (.inl ⟨rfl, rfl⟩)
  | openParen => exact .inr (.inr (.inl ⟨rfl, rfl⟩))
  | closeParen => exact .inr (.inr (.inr (.inl ⟨rfl, rfl⟩)))
  | operator operator =>
      exact .inr (.inr (.inr (.inr ⟨operator, rfl, rfl⟩)))

end GraphingCalculator
