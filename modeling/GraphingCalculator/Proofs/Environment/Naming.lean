import GraphingCalculator.Proofs.Environment.Evaluation
import GraphingCalculator.Proofs.Grammar.Compilation
import GraphingCalculator.Proofs.Source.Replacement

/-!
# Reading a name back

A definition can be used in a source if its name is read back as one token.  The
names that can be defined and the identifiers of a source are found in two ways:
a name is checked as a whole, and a source is read from the left, the free
variable first.  So they agree on all names but those that begin with the free
variable.
-/

namespace GraphingCalculator

variable {name : Text}

theorem segments_of_isIdentifier (isName : isIdentifier name = true)
    (notVariable : name.head? ≠ some 'x') :
    segments name = [⟨name, .identifier⟩] := by
  have notDerivative : ¬ derivativeName <+: name ++ [] := by
    rw [List.append_nil]
    intro begins
    have slash : '/' ∈ name := begins.subset (by simp [derivativeName])
    have plain := (isPlain_of_isIdentifier isName).2 '/' slash
    simp [isPlain] at plain
  have isRead : Segment.IsRead ⟨name, .identifier⟩ [] :=
    Segment.isRead_identifier_iff.mpr
      ⟨isName, notVariable, notDerivative, by simp⟩
  have onlyPiece : segments
      ([⟨name, .identifier⟩].flatMap Segment.text) = [⟨name, .identifier⟩] := by
    apply Segment.segments_flatMap_text
    intro piece rest suffix
    have shorter := suffix.length_le
    simp only [List.length_cons, List.length_nil] at shorter
    have isNil : rest = [] := List.eq_nil_of_length_eq_zero (by omega)
    subst isNil
    cases suffix.eq_of_length rfl
    exact isRead
  simpa using onlyPiece

/-- A name passes the checks on the characters of a source. -/
theorem Source.check_of_isIdentifier (isName : isIdentifier name = true) :
    check name = .ok () := by
  have spells : Spells name [⟨.constant, name, 0⟩] := by
    have whole := Spells.token (.constant 0 isName) .nil
    rwa [List.append_nil] at whole
  apply check_of_spells spells (List.isChain_singleton _) _ rfl rfl
  · intro front begins
    have noClosing : closings front = 0 :=
      Nat.le_zero.mp (begins.sublist.countP_le ..)
    omega
  · rfl
  · intro first isFirst isOperator
    cases isFirst
    contradiction

theorem splitAtFirst?_of_isIdentifier (isName : isIdentifier name = true) :
    Text.splitAtFirst? '=' name = none := by
  rw [Text.splitAtFirst?_eq_none_iff]
  intro equals
  have plain := (isPlain_of_isIdentifier isName).2 '=' equals
  simp [isPlain] at plain

namespace Environment

variable {environment defined : Environment}

/-- A name in use that does not begin with the free variable is one token. -/
theorem tokenize_of_isIdentifier (isName : isIdentifier name = true)
    (notVariable : name.head? ≠ some 'x') {kind : Token.Kind}
    (known : environment.classify name = some kind) :
    environment.tokenize name = .ok [⟨kind, name, 0⟩] := by
  apply Source.tokenize_eq_ok_iff.mpr
  refine ⟨splitAtFirst?_of_isIdentifier isName,
    Source.check_of_isIdentifier isName, ?_⟩
  rw [segments_of_isIdentifier isName notVariable]
  simp only [locate, Source.readTokens, known, ok_bind]
  rfl

/-- A source that begins with the free variable has it for its first token. -/
theorem head?_of_tokenize {rest : Text} {tokens : List Token}
    (reads : environment.tokenize ('x' :: rest) = .ok tokens) :
    tokens.head? = some ⟨.freeVariable, variableName, 0⟩ := by
  have isVariable :
      Segment.beginning 'x' rest = ⟨variableName, .token .freeVariable⟩ := by
    rw [Segment.beginning_of_isLower (by decide), if_pos rfl]
  obtain ⟨-, -, reads⟩ := Source.tokenize_eq_ok_iff.mp reads
  rw [segments_cons, isVariable] at reads
  simp only [locate, Source.readTokens] at reads
  obtain ⟨others, -, reads⟩ := bind_eq_ok_iff.mp reads
  cases reads
  rfl

/-- A definition and a renaming that succeed give a meaning to the name. -/
theorem exists_userDefinition?_of_named
    (available : environment.checkAvailable name = .ok ())
    (names : (∃ source definition,
        environment.define name source = .ok (definition, defined)) ∨
      ∃ old, environment.rename old name = .ok defined) :
    ∃ definition, defined.userDefinition? name = some definition := by
  obtain ⟨definable, isFree⟩ := checkAvailable_eq_ok_iff.mp available
  rcases names with ⟨source, definition, defines⟩ | ⟨old, renames⟩
  · obtain ⟨formula, registers⟩ := exists_register_of_define defines
    obtain ⟨-, -, rfl⟩ := register_eq_ok_iff.mp registers
    exact ⟨definition, by rw [userDefinition?_insert, if_pos rfl]⟩
  · by_cases same : old = name
    · rw [same, rename, isFree] at renames
      contradiction
    · obtain ⟨isDefined, -, -⟩ := (rename_eq_ok_iff same).mp renames
      obtain ⟨definition, isDefinition⟩ :=
        Option.ne_none_iff_exists'.mp isDefined
      have moved := userDefinition?_renameName renames same same
      rw [Expression.renameName_self, isDefinition] at moved
      exact ⟨_, moved⟩

/-- A name that is accepted for a definition is read back as one token, of the
kind of the definition, exactly if it does not begin with the free variable.  If
it does, then the variable is read in its place. -/
theorem tokenize_of_named
    (available : environment.checkAvailable name = .ok ())
    (names : (∃ source definition,
        environment.define name source = .ok (definition, defined)) ∨
      ∃ old, environment.rename old name = .ok defined) :
    ∃ definition, defined.userDefinition? name = some definition ∧
      (defined.tokenize name = .ok [⟨definition.meaning.kind, name, 0⟩] ↔
        name.head? ≠ some 'x') ∧
      (name.head? = some 'x' → ∀ tokens,
        defined.tokenize name = .ok tokens →
          tokens.head? = some ⟨.freeVariable, variableName, 0⟩) := by
  obtain ⟨definable, -⟩ := checkAvailable_eq_ok_iff.mp available
  obtain ⟨definition, isDefinition⟩ :=
    exists_userDefinition?_of_named available names
  have known : defined.classify name = some definition.meaning.kind := by
    rw [classify_of_not_builtin definable.not_builtin, meaning?, isDefinition]
    rfl
  have readsVariable (begins : name.head? = some 'x') (tokens : List Token)
      (reads : defined.tokenize name = .ok tokens) :
      tokens.head? = some ⟨.freeVariable, variableName, 0⟩ := by
    obtain ⟨rest, rfl⟩ := List.head?_eq_some_iff.mp begins
    exact head?_of_tokenize reads
  refine ⟨definition, isDefinition, ⟨fun reads begins => ?_,
    fun notVariable =>
      tokenize_of_isIdentifier definable.identifier notVariable known⟩,
    readsVariable⟩
  have isVariable := readsVariable begins _ reads
  cases definition with
  | function formula => cases isVariable
  | constant value source => cases isVariable

/-- A constant is read back under its name. -/
theorem tokenize_of_named_area :
    (empty {}).checkAvailable "area".toList = .ok () ∧
      ∃ definition defined,
        (empty {}).define "area".toList "2*3".toList =
            .ok (definition, defined) ∧
          ∃ kind, defined.tokenize "area".toList =
            .ok [⟨kind, "area".toList, 0⟩] := by
  have available : (empty {}).checkAvailable "area".toList = .ok () := rfl
  obtain ⟨⟨definition, defined⟩, defines⟩ : ∃ result,
      (empty {}).define "area".toList "2*3".toList = .ok result :=
    exists_eq_ok_of_isSome (by decide +kernel)
  obtain ⟨found, -, reads, -⟩ := tokenize_of_named available
    (.inl ⟨"2*3".toList, definition, defines⟩)
  exact ⟨available, definition, defined, defines, _, reads.mpr (by decide)⟩

/-- Names that begin with the free variable are accepted, and not found again:
the rest of the name is looked up, or multiplied if it is a number. -/
theorem tokenize_of_named_variable :
    ((empty {}).processDefinition "xa = 5".toList).map
        (fun result => (result.1, result.2.classify "xa".toList,
          result.2.tokenize "xa".toList)) =
      .ok ("xa".toList, some .constant,
        .error ⟨.unknownIdentifier "a".toList, 1⟩) ∧
    ((empty {}).processDefinition "x2 = 5".toList).map
        (fun result => (result.1, result.2.classify "x2".toList,
          result.2.tokenize "x2".toList)) =
      .ok ("x2".toList, some .constant,
        .ok [⟨.freeVariable, "x".toList, 0⟩, ⟨.number, "2".toList, 1⟩]) := by
  decide +kernel

end Environment
end GraphingCalculator
