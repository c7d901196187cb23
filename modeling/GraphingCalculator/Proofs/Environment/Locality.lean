import GraphingCalculator.Proofs.Compilation.Dependence

/-!
# Only what is reached matters

An evaluation asks for the names of its expression, and inside the functions
among them for the names of their bodies, and so on.  A compilation asks for the
kinds of the identifiers of its source.  Neither asks for anything else, so that
two environments which agree there give the same results, errors included,
however their functions call each other.
-/

namespace GraphingCalculator
namespace Environment

/-- The names that can be reached from an expression: those that it refers to,
and those that can be reached from the functions among them. -/
inductive Consults (environment : Environment) : Expression → Text → Prop
  | reference {expression : Expression} {name : Text}
      (refers : expression.references name = true) :
      Consults environment expression name
  | through {expression : Expression} {name target : Text} {formula : Formula}
      (refers : expression.references name = true)
      (isFunction : environment.function? name = some formula)
      (consults : Consults environment formula.expression target) :
      Consults environment expression target

variable {first second : Environment} {expression : Expression} {name : Text}

theorem constant?_of_definition?
    (same : first.definition? name = second.definition? name) :
    first.constant? name = second.constant? name := by
  rw [constant?, constant?, same]

theorem function?_of_definition?
    (same : first.definition? name = second.definition? name) :
    first.function? name = second.function? name := by
  rw [function?, function?, same]

/-- Calls agree where the name has the same meaning and its body reaches names
of the same meaning only. -/
theorem call_eq_of_agreement (sameLimits : first.limits = second.limits)
    (calls : Nat)
    (same : first.definition? name = second.definition? name)
    (sameInside : ∀ formula, first.function? name = some formula →
      ∀ target, first.Consults formula.expression target →
        first.definition? target = second.definition? target) :
    first.call calls name = second.call calls name := by
  funext operand derivatives
  induction calls generalizing name operand derivatives with
  | zero =>
      rw [call, call, ← function?_of_definition? same, sameLimits]
  | succ calls ih =>
      rw [call, call, ← function?_of_definition? same]
      cases isFunction : first.function? name with
      | none => rfl
      | some formula =>
          have agrees (target : Text)
              (consults : first.Consults formula.expression target) :=
            sameInside formula isFunction target consults
          -- What the body calls reaches nothing that the body does not reach.
          have sameBody := Expression.evaluateWith_congr sameLimits
            (fun next refers =>
              constant?_of_definition? (agrees next (.reference refers)))
            (fun next refers => funext fun operand => funext fun derivatives =>
              ih (agrees next (.reference refers))
                (fun inner isInner target consults =>
                  agrees target (.through refers isInner consults))
                operand derivatives)
            derivatives operand
          simp only [sameBody]

/-- Expressions are evaluated alike where the names that they reach have the
same meaning. -/
theorem evaluateWithin_of_agreement (sameLimits : first.limits = second.limits)
    (same : ∀ name, first.Consults expression name →
      first.definition? name = second.definition? name)
    (calls derivatives : Nat) (x : Float) :
    first.evaluateWithin calls derivatives expression x =
      second.evaluateWithin calls derivatives expression x := by
  refine Expression.evaluateWith_congr sameLimits (fun name refers => ?_)
    (fun name refers => ?_) derivatives x
  · exact constant?_of_definition? (same name (.reference refers))
  · refine call_eq_of_agreement sameLimits calls (same name (.reference refers))
      fun formula isFunction target consults => ?_
    exact same target (.through refers isFunction consults)

theorem definition?_insert_of_ne {other : Text} (differs : other ≠ name)
    (environment : Environment) (definition : UserDefinition) :
    (environment.insert name definition).definition? other =
      environment.definition? other := by
  rw [definition?, definition?, userDefinition?_insert, if_neg differs]

theorem definition?_remove_of_ne {other : Text} (differs : other ≠ name)
    (environment : Environment) :
    (environment.remove name).2.definition? other =
      environment.definition? other := by
  rw [definition?, definition?, userDefinition?_remove_of_ne differs]

/-- Environments that agree on everything that an expression reaches evaluate it
alike, within every budget and at every number.  Those that take the identifiers
of a source for the same kinds compile it alike, or refuse it for the same
reason.  And a definition that an expression does not reach can be given,
replaced or removed without a trace. -/
theorem results_of_agreement {first second : Environment}
    (sameLimits : first.limits = second.limits) :
    (∀ expression : Expression,
      (∀ name, first.Consults expression name →
        first.definition? name = second.definition? name) →
      (∀ x, first.evaluate expression x = second.evaluate expression x) ∧
        ∀ calls derivatives x,
          first.evaluateWithin calls derivatives expression x =
            second.evaluateWithin calls derivatives expression x) ∧
      (∀ source : Text,
        (∀ position name, (position, name) ∈ identifiers source →
          first.classify name = second.classify name) →
        first.compile source = second.compile source) ∧
      ∀ (expression : Expression) (name : Text),
        ¬ first.Consults expression name → ∀ x,
          (∀ definition,
            (first.insert name definition).evaluate expression x =
              first.evaluate expression x) ∧
            (first.remove name).2.evaluate expression x =
              first.evaluate expression x := by
  refine ⟨fun expression same => ⟨fun x => ?_, fun calls derivatives x => ?_⟩,
    fun source same => ?_, fun expression name unreached x =>
      ⟨fun definition => ?_, ?_⟩⟩
  · rw [evaluate, evaluate, ← sameLimits]
    exact evaluateWithin_of_agreement sameLimits same _ _ x
  · exact evaluateWithin_of_agreement sameLimits same calls derivatives x
  · refine compile_congr sameLimits fun name mentioned => ?_
    obtain ⟨position, member⟩ := exists_mem_identifiers_iff.mpr mentioned
    exact same position name member
  · refine (evaluateWithin_of_agreement (limits_insert ..).symm
      (fun other consults => ?_) _ _ x).symm
    refine (definition?_insert_of_ne ?_ first definition).symm
    rintro rfl
    exact unreached consults
  · rw [evaluate, limits_remove]
    refine (evaluateWithin_of_agreement (limits_remove ..).symm
      (fun other consults => ?_) _ _ x).symm
    refine (definition?_remove_of_ne ?_ first).symm
    rintro rfl
    exact unreached consults

/-- A function that calls itself runs out of calls with or without a constant
that it does not reach, and the source of its body is compiled alike. -/
theorem results_of_agreement_circle :
    let body : Expression :=
      .binary .plus (.call ['f'] .freeVariable) (.constant ['a'])
    let circle : Environment :=
      ⟨{}, [(['f'], .function ⟨"f(x) + a".toList, body⟩),
        (['a'], .constant 2 ['2'])], 0⟩
    let more : Environment := circle.insert ['b'] (.constant 7 ['7'])
    circle.limits = more.limits ∧
      more.evaluate (.call ['f'] .freeVariable) 1 =
        .error (.recursionLimit 32) ∧
      circle.compile "f(x) + a".toList = more.compile "f(x) + a".toList := by
  intro body circle more
  have sameLimits : circle.limits = more.limits := rfl
  obtain ⟨evaluates, compiles, -⟩ := results_of_agreement sameLimits
  have reached {expression : Expression} {name : Text}
      (consults : circle.Consults expression name)
      (refers : ∀ other, expression.references other = true →
        other = ['f'] ∨ other = ['a']) : name = ['f'] ∨ name = ['a'] := by
    induction consults with
    | reference isReference => exact refers _ isReference
    | @through expression name target formula isReference isFunction _ ih =>
        refine ih fun other isOther => ?_
        rcases refers name isReference with rfl | rfl
        · cases isFunction
          simp only [body, Expression.references, Bool.or_false,
            Bool.or_eq_true, decide_eq_true_eq] at isOther
          exact isOther.imp Eq.symm Eq.symm
        · cases isFunction
  refine ⟨sameLimits, ?_, compiles _ fun position name member => ?_⟩
  · refine ((evaluates _ fun name consults => ?_).1 1).symm.trans rfl
    have isReached := reached consults fun other isOther => by
      simp only [Expression.references, Bool.or_false, decide_eq_true_eq]
        at isOther
      exact .inl isOther.symm
    refine (definition?_insert_of_ne ?_ circle (.constant 7 ['7'])).symm
    rintro rfl
    simp at isReached
  · have isMentioned : ∀ found ∈ identifiers "f(x) + a".toList,
        circle.classify found.2 = more.classify found.2 := by
      decide +kernel
    exact isMentioned _ member

end Environment
end GraphingCalculator
