import GraphingCalculator.Proofs.Environment.Evaluation
import Mathlib.Data.ENat.Lattice
import Mathlib.Logic.Relation
import Mathlib.Order.CompletePartialOrder

/-!
# How deep calls and derivatives are nested

An expression is followed from its root inwards, and from a call on into the
body of the function as well.  Each call and each derivative that is passed on
the way weighs something, and the nesting of an expression is the largest weight
of such a path: the nesting of calls if only calls weigh, and the nesting of
derivatives if only derivatives do.  Functions that call each other in a circle
have paths of any length, and so the nesting of calls is infinite there.
-/

namespace GraphingCalculator

/-- The functions that an expression calls itself. -/
def Expression.callees : Expression → List Text
  | freeVariable | value _ | constant _ => []
  | binary _ left right => left.callees ++ right.callees
  | apply _ argument => argument.callees
  | call name argument => name :: argument.callees
  | derivative operand => operand.callees

namespace Environment

/-- The weights of the paths that lead inwards from the root of an
expression. -/
inductive Nests (environment : Environment)
    (callWeight derivativeWeight : Nat) : Expression → Nat → Prop
  | root (expression : Expression) :
      Nests environment callWeight derivativeWeight expression 0
  | left {operator : Operator} {left right : Expression} {weight : Nat}
      (path : Nests environment callWeight derivativeWeight left weight) :
      Nests environment callWeight derivativeWeight
        (.binary operator left right) weight
  | right {operator : Operator} {left right : Expression} {weight : Nat}
      (path : Nests environment callWeight derivativeWeight right weight) :
      Nests environment callWeight derivativeWeight
        (.binary operator left right) weight
  | operand {function : BuiltinFunction} {argument : Expression}
      {weight : Nat}
      (path : Nests environment callWeight derivativeWeight argument weight) :
      Nests environment callWeight derivativeWeight
        (.apply function argument) weight
  | argument {name : Text} {argument : Expression} {weight : Nat}
      (path : Nests environment callWeight derivativeWeight argument weight) :
      Nests environment callWeight derivativeWeight (.call name argument)
        weight
  | body {name : Text} {argument expression : Expression} {weight : Nat}
      (isBody : environment.body? name = some expression)
      (path : Nests environment callWeight derivativeWeight expression
        weight) :
      Nests environment callWeight derivativeWeight (.call name argument)
        (weight + callWeight)
  | slope {operand : Expression} {weight : Nat}
      (path : Nests environment callWeight derivativeWeight operand weight) :
      Nests environment callWeight derivativeWeight (.derivative operand)
        (weight + derivativeWeight)

/-- The largest weight of a path inwards. -/
noncomputable def nesting (environment : Environment)
    (callWeight derivativeWeight : Nat) (expression : Expression) : ℕ∞ :=
  ⨆ weight : {weight //
    environment.Nests callWeight derivativeWeight expression weight},
    ((weight : Nat) : ℕ∞)

/-- The largest number of calls of user functions inside each other, counted
through the bodies of the functions. -/
noncomputable def callNesting (environment : Environment) :
    Expression → ℕ∞ :=
  environment.nesting 1 0

/-- The largest number of derivatives inside each other, counted through the
bodies of the functions. -/
noncomputable def derivativeNesting (environment : Environment) :
    Expression → ℕ∞ :=
  environment.nesting 0 1

section Nesting

variable {environment : Environment} {callWeight derivativeWeight : Nat}

theorem nesting_le_iff {expression : Expression} {bound : ℕ∞} :
    environment.nesting callWeight derivativeWeight expression ≤ bound ↔
      ∀ weight, environment.Nests callWeight derivativeWeight expression
        weight → (weight : ℕ∞) ≤ bound := by
  rw [nesting, iSup_le_iff]
  exact Subtype.forall

theorem Nests.le_nesting {expression : Expression} {weight : Nat}
    (path : environment.Nests callWeight derivativeWeight expression weight) :
    (weight : ℕ∞) ≤
      environment.nesting callWeight derivativeWeight expression :=
  nesting_le_iff.mp le_rfl weight path

/-- Paths that go on from an inner expression weigh that much more. -/
private theorem nesting_add_le {inner outer : Expression} {more : Nat}
    (continues : ∀ weight,
      environment.Nests callWeight derivativeWeight inner weight →
        environment.Nests callWeight derivativeWeight outer (weight + more)) :
    environment.nesting callWeight derivativeWeight inner + more ≤
      environment.nesting callWeight derivativeWeight outer := by
  have : Nonempty {weight //
      environment.Nests callWeight derivativeWeight inner weight} :=
    ⟨0, .root inner⟩
  rw [nesting, ENat.iSup_add]
  refine iSup_le fun ⟨weight, path⟩ => ?_
  exact_mod_cast (continues weight path).le_nesting

theorem nesting_binary (operator : Operator) (left right : Expression) :
    environment.nesting callWeight derivativeWeight
        (.binary operator left right) =
      max (environment.nesting callWeight derivativeWeight left)
        (environment.nesting callWeight derivativeWeight right) := by
  refine le_antisymm (nesting_le_iff.mpr fun weight path => ?_)
    (max_le ?_ ?_)
  · cases path with
    | root => exact bot_le
    | left path => exact le_max_of_le_left path.le_nesting
    | right path => exact le_max_of_le_right path.le_nesting
  · exact nesting_le_iff.mpr fun weight path => path.left.le_nesting
  · exact nesting_le_iff.mpr fun weight path => path.right.le_nesting

theorem nesting_apply (function : BuiltinFunction) (argument : Expression) :
    environment.nesting callWeight derivativeWeight
        (.apply function argument) =
      environment.nesting callWeight derivativeWeight argument := by
  refine le_antisymm (nesting_le_iff.mpr fun weight path => ?_)
    (nesting_le_iff.mpr fun weight path => path.operand.le_nesting)
  cases path with
  | root => exact bot_le
  | operand path => exact path.le_nesting

/-- The argument of a call counts as it is, and the body of the function one
call deeper. -/
theorem nesting_call {name : Text} {body : Expression}
    (isBody : environment.body? name = some body) (argument : Expression) :
    environment.nesting callWeight derivativeWeight (.call name argument) =
      max (environment.nesting callWeight derivativeWeight argument)
        (environment.nesting callWeight derivativeWeight body +
          callWeight) := by
  refine le_antisymm (nesting_le_iff.mpr fun weight path => ?_)
    (max_le (nesting_le_iff.mpr fun weight path => path.argument.le_nesting)
      (nesting_add_le fun weight path => .body isBody path))
  cases path with
  | root => exact bot_le
  | argument path => exact le_max_of_le_left path.le_nesting
  | body isOther path =>
      cases isBody.symm.trans isOther
      refine le_max_of_le_right ?_
      rw [Nat.cast_add]
      gcongr
      exact path.le_nesting

theorem nesting_call_of_undefined {name : Text}
    (undefined : environment.body? name = none) (argument : Expression) :
    environment.nesting callWeight derivativeWeight (.call name argument) =
      environment.nesting callWeight derivativeWeight argument := by
  refine le_antisymm (nesting_le_iff.mpr fun weight path => ?_)
    (nesting_le_iff.mpr fun weight path => path.argument.le_nesting)
  cases path with
  | root => exact bot_le
  | argument path => exact path.le_nesting
  | body isBody path =>
      rw [undefined] at isBody
      contradiction

theorem nesting_derivative (operand : Expression) :
    environment.nesting callWeight derivativeWeight (.derivative operand) =
      environment.nesting callWeight derivativeWeight operand +
        derivativeWeight := by
  refine le_antisymm (nesting_le_iff.mpr fun weight path => ?_)
    (nesting_add_le fun weight path => .slope path)
  cases path with
  | root => exact bot_le
  | slope path =>
      rw [Nat.cast_add]
      gcongr
      exact path.le_nesting

end Nesting

/-- The body of one function calls another one. -/
def CallsInto (environment : Environment) (caller callee : Text) : Prop :=
  ∃ body, environment.body? caller = some body ∧ callee ∈ body.callees

/-- An expression calls into functions that call each other in a circle. -/
def ReachesCycle (environment : Environment) (expression : Expression) :
    Prop :=
  ∃ first ∈ expression.callees, ∃ name,
    Relation.ReflTransGen environment.CallsInto first name ∧
      Relation.TransGen environment.CallsInto name name

section Cycle

variable {environment : Environment}

/-- How deep calls are nested below a function. -/
private noncomputable def height (environment : Environment) (name : Text) :
    ℕ∞ :=
  environment.callNesting (.call name .freeVariable)

private theorem height_le_callNesting {expression : Expression} {name : Text}
    (isCallee : name ∈ expression.callees) :
    environment.height name ≤ environment.callNesting expression := by
  have bounded (argument : Expression) :
      environment.height name ≤
        environment.callNesting (.call name argument) := by
    refine nesting_le_iff.mpr fun weight path => ?_
    cases path with
    | root => exact bot_le
    | argument path => cases path; exact bot_le
    | body isBody path => exact (Nests.body isBody path).le_nesting
  induction expression with
  | freeVariable | value | constant => contradiction
  | binary operator left right leftIH rightIH =>
      rw [callNesting, nesting_binary]
      rcases List.mem_append.mp isCallee with isCallee | isCallee
      · exact le_max_of_le_left (leftIH isCallee)
      · exact le_max_of_le_right (rightIH isCallee)
  | apply function argument ih =>
      rw [callNesting, nesting_apply]
      exact ih isCallee
  | call other argument ih =>
      rcases List.mem_cons.mp isCallee with rfl | isCallee
      · exact bounded argument
      · refine (ih isCallee).trans ?_
        exact nesting_le_iff.mpr fun weight path => path.argument.le_nesting
  | derivative operand ih =>
      rw [callNesting, nesting_derivative]
      exact le_add_right (ih isCallee)

private theorem height_succ_le {caller callee : Text}
    (calls : environment.CallsInto caller callee) :
    environment.height callee + 1 ≤ environment.height caller := by
  obtain ⟨body, isBody, isCallee⟩ := calls
  refine le_trans ?_ (nesting_call isBody .freeVariable).ge
  refine le_max_of_le_right ?_
  rw [Nat.cast_one]
  gcongr
  exact height_le_callNesting isCallee

private theorem height_succ_le_of_transGen {caller callee : Text}
    (calls : Relation.TransGen environment.CallsInto caller callee) :
    environment.height callee + 1 ≤ environment.height caller := by
  induction calls with
  | single calls => exact height_succ_le calls
  | tail further calls ih =>
      exact (height_succ_le calls).trans (le_self_add.trans ih)

private theorem height_le_of_reflTransGen {caller callee : Text}
    (calls : Relation.ReflTransGen environment.CallsInto caller callee) :
    environment.height callee ≤ environment.height caller := by
  rcases Relation.reflTransGen_iff_eq_or_transGen.mp calls with rfl | calls
  · exact le_rfl
  · exact le_self_add.trans (height_succ_le_of_transGen calls)

/-- Calls that lead into a circle are nested without end. -/
theorem ReachesCycle.callNesting_eq_top {expression : Expression}
    (cyclic : environment.ReachesCycle expression) :
    environment.callNesting expression = ⊤ := by
  obtain ⟨first, isCallee, name, leads, circles⟩ := cyclic
  have endless : environment.height name = ⊤ := by
    by_contra finite
    exact absurd (height_succ_le_of_transGen circles)
      (not_le.mpr ((ENat.lt_add_one_iff finite).mpr le_rfl))
  have below := (height_le_of_reflTransGen leads).trans
    (height_le_callNesting isCallee)
  rwa [endless, top_le_iff] at below

end Cycle
end Environment
end GraphingCalculator
