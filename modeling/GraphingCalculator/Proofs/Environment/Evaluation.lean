import GraphingCalculator.Environment.Evaluation
import GraphingCalculator.Proofs.Environment.Lookup
import GraphingCalculator.Proofs.Sequence

/-!
# What an evaluation depends on

An evaluation follows names through the functions that it calls.  Environments
that give the same meaning to the names which are reached in this way evaluate
an expression alike, down to the error.  And a value stays when definitions are
renamed or added, because an evaluation that succeeds never misses a name; an
error need not stay, since it may carry a name.
-/

namespace GraphingCalculator

/-- What an evaluation reads of a definition: the expression of a function, or
the value of a constant. -/
inductive Meaning
  | function (expression : Expression)
  | constant (value : Float)

namespace Meaning

/-- The kind of the tokens that stand for a meaning. -/
def kind : Meaning → Token.Kind
  | function _ => .function
  | constant _ => .constant

def value? : Meaning → Option Float
  | function _ => none
  | constant value => some value

def expression? : Meaning → Option Expression
  | function expression => some expression
  | constant _ => none

end Meaning

/-- The meaning of a definition, which does not depend on its source. -/
def UserDefinition.meaning : UserDefinition → Meaning
  | function formula => .function formula.expression
  | constant value _ => .constant value

theorem UserDefinition.refersTo_of_meaning {definition : UserDefinition}
    {expression : Expression}
    (isMeaning : definition.meaning = .function expression) {target : Text}
    (refers : expression.references target = true) :
    definition.RefersTo target := by
  cases definition with
  | constant value source => contradiction
  | function formula =>
      cases isMeaning
      exact ⟨formula, rfl, refers⟩

namespace Environment

/-- The meaning that the user gave to a name. -/
def meaning? (environment : Environment) (name : Text) : Option Meaning :=
  (environment.userDefinition? name).map UserDefinition.meaning

/-- The names that an evaluation can reach from a name, through the functions
that are defined. -/
inductive Reaches (environment : Environment) : Text → Text → Prop
  | self (name : Text) : Reaches environment name name
  | through {name next target : Text} {expression : Expression}
      (isFunction : environment.meaning? name = some (.function expression))
      (refers : expression.references next = true)
      (reaches : Reaches environment next target) :
      Reaches environment name target

variable {environment first second : Environment} {name : Text}

theorem meaning?_congr
    (same : first.userDefinition? name = second.userDefinition? name) :
    first.meaning? name = second.meaning? name := by
  rw [meaning?, meaning?, same]

theorem classify_of_not_builtin (notBuiltin : builtinDefinition? name = none) :
    environment.classify name =
      (environment.meaning? name).map Meaning.kind := by
  rw [classify, definition?_of_not_builtin notBuiltin, meaning?]
  cases environment.userDefinition? name with
  | none => rfl
  | some definition => cases definition <;> rfl

theorem constant?_of_not_builtin (notBuiltin : builtinDefinition? name = none) :
    environment.constant? name =
      (environment.meaning? name).bind Meaning.value? := by
  rw [constant?, definition?_of_not_builtin notBuiltin, meaning?]
  cases environment.userDefinition? name with
  | none => rfl
  | some definition => cases definition <;> rfl

/-- The expression of the function that a user defined. -/
def body? (environment : Environment) (name : Text) : Option Expression :=
  (environment.function? name).map Formula.expression

theorem body?_of_not_builtin (notBuiltin : builtinDefinition? name = none) :
    environment.body? name =
      (environment.meaning? name).bind Meaning.expression? := by
  rw [body?, function?, definition?_of_not_builtin notBuiltin, meaning?]
  cases environment.userDefinition? name with
  | none => rfl
  | some definition => cases definition <;> rfl

theorem body?_of_builtin {definition : Definition}
    (builtin : builtinDefinition? name = some definition) :
    environment.body? name = none := by
  have notUser : ∀ given, definition ≠ .user given := by
    rintro given rfl
    unfold builtinDefinition? at builtin
    split at builtin <;> simp at builtin
  rw [body?, function?, definition?_of_builtin builtin]
  cases definition with
  | user given => exact absurd rfl (notUser given)
  | _ => rfl

theorem classify_congr (same : first.meaning? name = second.meaning? name) :
    first.classify name = second.classify name := by
  cases builtin : builtinDefinition? name with
  | some definition => simp only [classify, definition?_of_builtin builtin]
  | none =>
      rw [classify_of_not_builtin builtin, classify_of_not_builtin builtin,
        same]

theorem constant?_congr (same : first.meaning? name = second.meaning? name) :
    first.constant? name = second.constant? name := by
  cases builtin : builtinDefinition? name with
  | some definition => simp only [constant?, definition?_of_builtin builtin]
  | none =>
      rw [constant?_of_not_builtin builtin, constant?_of_not_builtin builtin,
        same]

theorem body?_congr (same : first.meaning? name = second.meaning? name) :
    first.body? name = second.body? name := by
  cases builtin : builtinDefinition? name with
  | some definition => rw [body?_of_builtin builtin, body?_of_builtin builtin]
  | none =>
      rw [body?_of_not_builtin builtin, body?_of_not_builtin builtin, same]

theorem meaning?_of_body? {expression : Expression}
    (isBody : environment.body? name = some expression) :
    environment.meaning? name = some (.function expression) := by
  cases builtin : builtinDefinition? name with
  | some definition =>
      rw [body?_of_builtin builtin] at isBody
      contradiction
  | none =>
      rw [body?_of_not_builtin builtin, Option.bind_eq_some_iff] at isBody
      obtain ⟨meaning, isMeaning, isExpression⟩ := isBody
      cases meaning with
      | function other =>
          cases isExpression
          exact isMeaning
      | constant value => contradiction

/-- A call evaluates the body of the function with one call less. -/
theorem call_eq (environment : Environment) (calls : Nat) (name : Text)
    (operand : Float) (derivatives : Nat) :
    environment.call calls name operand derivatives =
      match environment.body? name, calls with
      | none, _ => .error (.undefined name)
      | some _, 0 => .error (.recursionLimit environment.limits.callDepth)
      | some expression, calls + 1 =>
          environment.evaluateWithin calls derivatives expression operand >>=
            requireFinite name operand := by
  rw [body?, call]
  cases environment.function? name with
  | none => rfl
  | some formula => cases calls <;> rfl

end Environment

namespace Expression

/-- An evaluation asks for nothing but the names that the expression refers
to. -/
theorem evaluateWith_congr {first second : Environment}
    {answer other : Text → Float → Nat → Except DomainError Float}
    (sameLimits : first.limits = second.limits) {expression : Expression}
    (constants : ∀ name, expression.references name = true →
      first.constant? name = second.constant? name)
    (answers : ∀ name, expression.references name = true →
      answer name = other name) (derivatives : Nat) (x : Float) :
    expression.evaluateWith first answer derivatives x =
      expression.evaluateWith second other derivatives x := by
  induction expression generalizing derivatives x with
  | freeVariable | value => rfl
  | constant name =>
      rw [evaluateWith, evaluateWith, constants name (by simp [references])]
  | binary operator left right leftIH rightIH =>
      have sameLeft := leftIH
        (fun name refers => constants name (by simp [references, refers]))
        (fun name refers => answers name (by simp [references, refers]))
      have sameRight := rightIH
        (fun name refers => constants name (by simp [references, refers]))
        (fun name refers => answers name (by simp [references, refers]))
      simp only [evaluateWith, sameLeft, sameRight]
  | apply function argument ih =>
      simp only [evaluateWith, ih constants answers]
  | call name argument ih =>
      have sameArgument := ih
        (fun name refers => constants name (by simp [references, refers]))
        (fun name refers => answers name (by simp [references, refers]))
      simp only [evaluateWith, sameArgument,
        answers name (by simp [references])]
  | derivative operand ih =>
      cases derivatives with
      | zero => rw [evaluateWith, evaluateWith, sameLimits]
      | succ derivatives =>
          simp only [evaluateWith, ih constants answers]

end Expression

namespace Environment

variable {first second : Environment}

/-- Calls agree where all names that they reach have the same meaning. -/
theorem call_congr (sameLimits : first.limits = second.limits) (calls : Nat)
    {name : Text}
    (same : ∀ target, first.Reaches name target →
      first.meaning? target = second.meaning? target) :
    first.call calls name = second.call calls name := by
  funext operand derivatives
  induction calls generalizing name operand derivatives with
  | zero =>
      rw [call_eq, call_eq, ← body?_congr (same name (.self name)), sameLimits]
      cases first.body? name <;> rfl
  | succ calls ih =>
      rw [call_eq, call_eq, ← body?_congr (same name (.self name))]
      cases isBody : first.body? name with
      | none => rfl
      | some expression =>
          have reaches {next : Text}
              (refers : expression.references next = true) {target : Text}
              (further : first.Reaches next target) :
              first.meaning? target = second.meaning? target :=
            same target (.through (meaning?_of_body? isBody) refers further)
          have sameValue : first.evaluateWithin calls derivatives expression
                operand =
              second.evaluateWithin calls derivatives expression operand :=
            Expression.evaluateWith_congr sameLimits
              (fun next refers => constant?_congr (reaches refers (.self next)))
              (fun next refers => funext fun operand =>
                funext fun derivatives =>
                  ih (fun target => reaches refers) operand derivatives)
              derivatives operand
          simp only [sameValue]

/-- Expressions are evaluated alike where all names that they reach have the
same meaning. -/
theorem evaluate_congr (sameLimits : first.limits = second.limits)
    {expression : Expression}
    (same : ∀ name, expression.references name = true →
      ∀ target, first.Reaches name target →
        first.meaning? target = second.meaning? target) (x : Float) :
    first.evaluate expression x = second.evaluate expression x := by
  rw [evaluate, evaluate, sameLimits]
  exact Expression.evaluateWith_congr sameLimits
    (fun name refers => constant?_congr (same name refers name (.self name)))
    (fun name refers => call_congr sameLimits _ (same name refers)) _ x

theorem definitionOf_congr (sameLimits : first.limits = second.limits)
    {formula : Formula}
    (same : ∀ name, formula.references name = true →
      ∀ target, first.Reaches name target →
        first.meaning? target = second.meaning? target) :
    first.definitionOf formula = second.definitionOf formula := by
  rw [definitionOf, definitionOf, evaluate_congr sameLimits same]

end Environment

/-- A value of the derivative stays when the values of the function stay, since
all of them are needed. -/
theorem Stencil.derivative_mono {f g : Float → Except DomainError Float}
    (follows : ∀ point value, f point = .ok value → g point = .ok value)
    {x slope : Float} (differentiates : derivative f x = .ok slope) :
    derivative g x = .ok slope := by
  have sampled {point : Float} {value : Float}
      (isSample : sample f point = .ok (some value)) :
      sample g point = .ok (some value) := by
    unfold sample at isSample ⊢
    cases isValue : f point with
    | ok result =>
        rw [isValue] at isSample
        rw [follows point result isValue]
        exact isSample
    | error error =>
        rw [isValue] at isSample
        dsimp only at isSample
        split at isSample <;> cases isSample
  unfold derivative at differentiates ⊢
  obtain ⟨farAbove, isFarAbove, differentiates⟩ :=
    bind_eq_ok_iff.mp differentiates
  obtain ⟨above, isAbove, differentiates⟩ := bind_eq_ok_iff.mp differentiates
  obtain ⟨below, isBelow, differentiates⟩ := bind_eq_ok_iff.mp differentiates
  obtain ⟨farBelow, isFarBelow, differentiates⟩ :=
    bind_eq_ok_iff.mp differentiates
  obtain ⟨center, isCenter, differentiates⟩ := bind_eq_ok_iff.mp differentiates
  split at differentiates
  next =>
      simp only [sampled isFarAbove, sampled isAbove, sampled isBelow,
        sampled isFarBelow, sampled isCenter, ok_bind]
      exact differentiates
  next => contradiction

/-- Each definition of one environment stands in another one under the name that
it has after a renaming, which turns the references in it. -/
structure Environment.Follows (old new : Text) (first second : Environment) :
    Prop where
  constants : ∀ name value, first.constant? name = some value →
    second.constant? (Expression.renameName old new name) = some value
  bodies : ∀ name expression, first.body? name = some expression →
    second.body? (Expression.renameName old new name) =
      some (expression.rename old new)

theorem requireFinite_eq_ok_iff {function : Text}
    {operand result value : Float} :
    requireFinite function operand result = .ok value ↔
      result.isFinite = true ∧ result = value := by
  unfold requireFinite
  split
  next isFinite => simp [isFinite]
  next notFinite => simp [notFinite]

namespace Expression

variable {old new : Text}

/-- An evaluation that succeeds finds the same values under the new names. -/
theorem evaluateWith_rename {first second : Environment}
    {answer other : Text → Float → Nat → Except DomainError Float}
    (follows : first.Follows old new second)
    (answers : ∀ name operand derivatives value,
      answer name operand derivatives = .ok value →
        other (renameName old new name) operand derivatives = .ok value)
    {expression : Expression} {derivatives : Nat} {x value : Float}
    (evaluates :
      expression.evaluateWith first answer derivatives x = .ok value) :
    (expression.rename old new).evaluateWith second other derivatives x =
      .ok value := by
  induction expression generalizing derivatives x value with
  | freeVariable | value => exact evaluates
  | constant name =>
      rw [evaluateWith] at evaluates
      split at evaluates
      next number isNumber =>
          rw [rename, evaluateWith, follows.constants name number isNumber]
          exact evaluates
      next => contradiction
  | binary operator left right leftIH rightIH =>
      rw [evaluateWith] at evaluates
      obtain ⟨first, isFirst, evaluates⟩ := bind_eq_ok_iff.mp evaluates
      obtain ⟨second, isSecond, applies⟩ := bind_eq_ok_iff.mp evaluates
      rw [rename, evaluateWith, leftIH isFirst, ok_bind, rightIH isSecond,
        ok_bind]
      exact applies
  | apply function argument ih =>
      rw [evaluateWith] at evaluates
      obtain ⟨operand, isOperand, applies⟩ := bind_eq_ok_iff.mp evaluates
      rw [rename, evaluateWith, ih isOperand, ok_bind]
      exact applies
  | call name argument ih =>
      rw [evaluateWith] at evaluates
      obtain ⟨operand, isOperand, isAnswer⟩ := bind_eq_ok_iff.mp evaluates
      rw [rename, evaluateWith, ih isOperand, ok_bind]
      exact answers name operand derivatives value isAnswer
  | derivative operand ih =>
      cases derivatives with
      | zero => contradiction
      | succ derivatives =>
          rw [evaluateWith] at evaluates
          obtain ⟨slope, isSlope, isFinite⟩ := bind_eq_ok_iff.mp evaluates
          rw [rename, evaluateWith,
            Stencil.derivative_mono (fun point result => ih) isSlope, ok_bind]
          exact isFinite

end Expression

namespace Environment

variable {first second : Environment} {old new : Text}

theorem Follows.call_eq_ok (follows : first.Follows old new second)
    {calls derivatives : Nat} {name : Text} {operand value : Float}
    (answers : first.call calls name operand derivatives = .ok value) :
    second.call calls (Expression.renameName old new name) operand
      derivatives = .ok value := by
  induction calls generalizing name operand derivatives value with
  | zero =>
      rw [call_eq] at answers
      split at answers <;> contradiction
  | succ calls ih =>
      rw [call_eq] at answers
      cases isBody : first.body? name with
      | none =>
          rw [isBody] at answers
          contradiction
      | some expression =>
          rw [isBody] at answers
          obtain ⟨result, isResult, isFinite⟩ := bind_eq_ok_iff.mp answers
          rw [call_eq, follows.bodies name expression isBody]
          have sameResult : second.evaluateWithin calls derivatives
              (expression.rename old new) operand = .ok result :=
            Expression.evaluateWith_rename follows
              (fun name operand derivatives value => ih) isResult
          dsimp only
          rw [sameResult, ok_bind]
          exact requireFinite_eq_ok_iff.mpr
            (requireFinite_eq_ok_iff.mp isFinite)

/-- A value is found again under the new names. -/
theorem Follows.evaluate_eq_ok (follows : first.Follows old new second)
    (sameLimits : first.limits = second.limits) {expression : Expression}
    {x value : Float} (evaluates : first.evaluate expression x = .ok value) :
    second.evaluate (expression.rename old new) x = .ok value := by
  rw [evaluate, ← sameLimits]
  exact Expression.evaluateWith_rename follows
    (fun name operand derivatives value => follows.call_eq_ok) evaluates

end Environment

/-- The meaning with every reference to `old` turned to `new`. -/
def Meaning.rename (old new : Text) : Meaning → Meaning
  | function expression => function (expression.rename old new)
  | constant value => constant value

theorem UserDefinition.meaning_renameReferences (old new : Text)
    (definition : UserDefinition) :
    (definition.renameReferences old new).meaning =
      definition.meaning.rename old new := by
  cases definition with
  | constant value source => rfl
  | function formula =>
      rw [renameReferences]
      split
      next => rfl
      next notReferenced =>
          rw [meaning, Meaning.rename, Expression.rename_of_not_references
            (by simpa [Formula.references] using notReferenced)]

namespace Environment

theorem meaning?_insert (environment : Environment) (name other : Text)
    (definition : UserDefinition) :
    (environment.insert name definition).meaning? other =
      if other = name then some definition.meaning
      else environment.meaning? other := by
  rw [meaning?, userDefinition?_insert]
  split <;> rfl

theorem meaning?_remove (environment : Environment) (name other : Text) :
    (environment.remove name).2.meaning? other =
      if other = name then none else environment.meaning? other := by
  rw [meaning?, userDefinition?_remove]
  split <;> rfl

/-- An environment is followed by one that has its meanings, and perhaps
more. -/
theorem follows_of_meaning? {first second : Environment}
    (keeps : ∀ name meaning, first.meaning? name = some meaning →
      second.meaning? name = some meaning) (other : Text) :
    first.Follows other other second := by
  refine ⟨fun name value isConstant => ?_, fun name expression isBody => ?_⟩
  · rw [Expression.renameName_same]
    cases builtin : builtinDefinition? name with
    | some definition =>
        rw [constant?, definition?_of_builtin builtin] at isConstant ⊢
        exact isConstant
    | none =>
        rw [constant?_of_not_builtin builtin, Option.bind_eq_some_iff]
          at isConstant
        obtain ⟨meaning, isMeaning, isValue⟩ := isConstant
        rw [constant?_of_not_builtin builtin, keeps name meaning isMeaning]
        exact isValue
  · rw [Expression.renameName_same, Expression.rename_same]
    cases builtin : builtinDefinition? name with
    | some definition =>
        rw [body?_of_builtin builtin] at isBody
        contradiction
    | none =>
        rw [body?_of_not_builtin builtin,
          keeps name _ (meaning?_of_body? isBody)]
        rfl

/-- A renaming that succeeds carries every definition over to its new name. -/
theorem meaning?_renameName {environment renamed : Environment}
    {old new name : Text} (renames : environment.rename old new = .ok renamed)
    (differs : old ≠ new) (notNew : name ≠ new) :
    renamed.meaning? (Expression.renameName old new name) =
      (environment.meaning? name).map (Meaning.rename old new) := by
  rw [meaning?, meaning?, userDefinition?_renameName renames differs notNew,
    Option.map_map, Option.map_map]
  congr 1
  funext definition
  exact UserDefinition.meaning_renameReferences old new definition

/-- Each definition of one environment stands in another one, with the old name
turned to the new one.  There may be more definitions in the other one. -/
structure Keeps (old new : Text) (first second : Environment) : Prop where
  limits : first.limits = second.limits
  notBuiltinOld : builtinDefinition? old = none
  notBuiltinNew : builtinDefinition? new = none
  free : first.meaning? new = none
  moves : ∀ name meaning, first.meaning? name = some meaning →
    second.meaning? (Expression.renameName old new name) =
      some (meaning.rename old new)

namespace Keeps

variable {first second : Environment} {old new name : Text}

theorem ne_new (keeps : first.Keeps old new second) {meaning : Meaning}
    (isMeaning : first.meaning? name = some meaning) : name ≠ new := by
  rintro rfl
  rw [keeps.free] at isMeaning
  contradiction

theorem congr_left {same : Environment} (keeps : first.Keeps old new second)
    (sameLimits : first.limits = same.limits)
    (sameMeaning : ∀ name, first.meaning? name = same.meaning? name) :
    same.Keeps old new second where
  limits := sameLimits.symm.trans keeps.limits
  notBuiltinOld := keeps.notBuiltinOld
  notBuiltinNew := keeps.notBuiltinNew
  free := (sameMeaning new).symm.trans keeps.free
  moves name meaning isMeaning :=
    keeps.moves name meaning ((sameMeaning name).trans isMeaning)

theorem congr_right {same : Environment} (keeps : first.Keeps old new second)
    (sameLimits : second.limits = same.limits)
    (sameMeaning : ∀ name, second.meaning? name = same.meaning? name) :
    first.Keeps old new same where
  limits := keeps.limits.trans sameLimits
  notBuiltinOld := keeps.notBuiltinOld
  notBuiltinNew := keeps.notBuiltinNew
  free := keeps.free
  moves name meaning isMeaning :=
    (sameMeaning _).symm.trans (keeps.moves name meaning isMeaning)

theorem renameName_of_builtin (keeps : first.Keeps old new second)
    {definition : Definition}
    (builtin : builtinDefinition? name = some definition) :
    Expression.renameName old new name = name := by
  refine Expression.renameName_of_ne ?_
  rintro rfl
  rw [keeps.notBuiltinOld] at builtin
  contradiction

theorem not_builtin_renameName (keeps : first.Keeps old new second)
    (notBuiltin : builtinDefinition? name = none) :
    builtinDefinition? (Expression.renameName old new name) = none := by
  unfold Expression.renameName
  split
  · exact keeps.notBuiltinNew
  · exact notBuiltin

/-- Names keep their kind. -/
theorem classify_eq_some (keeps : first.Keeps old new second)
    {kind : Token.Kind} (known : first.classify name = some kind) :
    second.classify (Expression.renameName old new name) = some kind := by
  cases builtin : builtinDefinition? name with
  | some definition =>
      rw [keeps.renameName_of_builtin builtin]
      rw [classify, definition?_of_builtin builtin] at known ⊢
      exact known
  | none =>
      rw [classify_of_not_builtin builtin] at known
      obtain ⟨meaning, isMeaning, isKind⟩ := Option.map_eq_some_iff.mp known
      rw [classify_of_not_builtin (keeps.not_builtin_renameName builtin),
        keeps.moves name meaning isMeaning, ← isKind]
      cases meaning <;> rfl

theorem follows (keeps : first.Keeps old new second) :
    first.Follows old new second := by
  constructor
  · intro name value isConstant
    cases builtin : builtinDefinition? name with
    | some definition =>
        rw [keeps.renameName_of_builtin builtin]
        rw [constant?, definition?_of_builtin builtin] at isConstant ⊢
        exact isConstant
    | none =>
        rw [constant?_of_not_builtin builtin, Option.bind_eq_some_iff]
          at isConstant
        obtain ⟨meaning, isMeaning, isValue⟩ := isConstant
        rw [constant?_of_not_builtin (keeps.not_builtin_renameName builtin),
          keeps.moves name meaning isMeaning]
        cases meaning with
        | constant number => exact isValue
        | function expression => contradiction
  · intro name expression isBody
    have builtin : builtinDefinition? name = none := by
      cases builtin : builtinDefinition? name with
      | none => rfl
      | some definition =>
          rw [body?_of_builtin builtin] at isBody
          contradiction
    rw [body?_of_not_builtin (keeps.not_builtin_renameName builtin),
      keeps.moves name _ (meaning?_of_body? isBody)]
    rfl

/-- A value is found again under the new names. -/
theorem evaluate_eq_ok (keeps : first.Keeps old new second)
    {expression : Expression} {x value : Float}
    (evaluates : first.evaluate expression x = .ok value) :
    second.evaluate (expression.rename old new) x = .ok value :=
  keeps.follows.evaluate_eq_ok keeps.limits evaluates

theorem remove (keeps : first.Keeps old new second) (notNew : name ≠ new) :
    (first.remove name).2.Keeps old new
      (second.remove (Expression.renameName old new name)).2 where
  limits := by simp [keeps.limits]
  notBuiltinOld := keeps.notBuiltinOld
  notBuiltinNew := keeps.notBuiltinNew
  free := by rw [meaning?_remove, keeps.free, ite_self]
  moves other meaning isMeaning := by
    rw [meaning?_remove, Option.ite_none_left_eq_some] at isMeaning
    obtain ⟨differs, isMeaning⟩ := isMeaning
    have otherNotNew := keeps.ne_new isMeaning
    rw [meaning?_remove, if_neg, keeps.moves other meaning isMeaning]
    intro same
    exact differs (Expression.renameName_inj otherNotNew notNew same)

end Keeps

/-- One environment is another one after a renaming.  If the old name had no
meaning, then nothing has changed. -/
structure Renames (old new : Text) (first second : Environment) : Prop where
  limits : first.limits = second.limits
  notBuiltinOld : builtinDefinition? old = none
  notBuiltinNew : builtinDefinition? new = none
  free : first.meaning? new = none
  moves :
    (first.meaning? old = none ∧
      ∀ name, second.meaning? name = first.meaning? name) ∨
    ∀ name, name ≠ new →
      second.meaning? (Expression.renameName old new name) =
        (first.meaning? name).map (Meaning.rename old new)

namespace Renames

variable {first second : Environment} {old new name : Text}

theorem remove (renames : first.Renames old new second)
    (differs : name ≠ new) :
    (first.remove name).2.Renames old new
      (second.remove (Expression.renameName old new name)).2 where
  limits := by simp [renames.limits]
  notBuiltinOld := renames.notBuiltinOld
  notBuiltinNew := renames.notBuiltinNew
  free := by
    rw [meaning?_remove]
    split
    next => rfl
    next => exact renames.free
  moves := by
    have removed (other : Text) (notNew : other ≠ new) :
        Expression.renameName old new other =
          Expression.renameName old new name ↔ other = name :=
      ⟨Expression.renameName_inj notNew differs, fun same => by rw [same]⟩
    rcases renames.moves with ⟨undefined, same⟩ | moves
    · refine .inl ⟨by rw [meaning?_remove, undefined, ite_self], ?_⟩
      intro other
      rw [meaning?_remove, meaning?_remove, same]
      by_cases isOld : name = old
      · rw [isOld, Expression.renameName_self]
        split
        next isNew =>
            rw [isNew, renames.free, ite_self]
        next =>
            split
            next isOther => rw [isOther, undefined]
            next => rfl
      · rw [Expression.renameName_of_ne isOld]
    · refine .inr fun other notNew => ?_
      rw [meaning?_remove, meaning?_remove, moves other notNew]
      simp only [removed other notNew]
      split <;> rfl

/-- Names other than the two keep their kind. -/
theorem classify_eq (renames : first.Renames old new second)
    (notOld : name ≠ old) (notNew : name ≠ new) :
    first.classify name = second.classify name := by
  cases builtin : builtinDefinition? name with
  | some definition => simp only [classify, definition?_of_builtin builtin]
  | none =>
      rw [classify_of_not_builtin builtin, classify_of_not_builtin builtin]
      rcases renames.moves with ⟨-, same⟩ | moves
      · rw [same]
      · have moved := moves name notNew
        rw [Expression.renameName_of_ne notOld] at moved
        rw [moved, Option.map_map]
        congr 1
        funext meaning
        cases meaning <;> rfl

/-- Names keep their meaning that do not refer to the old one. -/
theorem meaning?_eq (renames : first.Renames old new second)
    (notOld : name ≠ old) (notNew : name ≠ new)
    (notReferenced : ∀ expression,
      first.meaning? name = some (.function expression) →
        expression.references old = false) :
    first.meaning? name = second.meaning? name := by
  rcases renames.moves with ⟨-, same⟩ | moves
  · rw [same]
  · have moved := moves name notNew
    rw [Expression.renameName_of_ne notOld] at moved
    rw [moved]
    cases isMeaning : first.meaning? name with
    | none => rfl
    | some meaning =>
        cases meaning with
        | constant value => rfl
        | function expression =>
            rw [Option.map_some, Meaning.rename,
              Expression.rename_of_not_references
                (notReferenced expression isMeaning)]

theorem keeps (renames : first.Renames old new second)
    (moves : ∀ name, name ≠ new →
      second.meaning? (Expression.renameName old new name) =
        (first.meaning? name).map (Meaning.rename old new)) :
    first.Keeps old new second where
  limits := renames.limits
  notBuiltinOld := renames.notBuiltinOld
  notBuiltinNew := renames.notBuiltinNew
  free := renames.free
  moves name meaning isMeaning := by
    have notNew : name ≠ new := by
      rintro rfl
      rw [renames.free] at isMeaning
      contradiction
    rw [moves name notNew, isMeaning]
    rfl

/-- An expression that does not refer to the old name keeps its value. -/
theorem evaluate_eq_ok (renames : first.Renames old new second)
    {expression : Expression}
    (notReferenced : expression.references old = false) {x value : Float}
    (evaluates : first.evaluate expression x = .ok value) :
    second.evaluate expression x = .ok value := by
  rcases renames.moves with ⟨-, same⟩ | moves
  · rw [← evaluate_congr renames.limits fun name _ target _ =>
      (same target).symm]
    exact evaluates
  · have follows := (renames.keeps moves).evaluate_eq_ok evaluates
    rwa [Expression.rename_of_not_references notReferenced] at follows

end Renames
end Environment
end GraphingCalculator
