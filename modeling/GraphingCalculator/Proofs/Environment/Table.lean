import GraphingCalculator.Proofs.Compilation.Renaming
import GraphingCalculator.Proofs.Environment.Grounding

/-!
# One table for all names

An environment lists the definitions of the user, and the built-in ones go
without saying.  This file keeps both in one table, where nothing but the checks
of the operations protects a built-in definition: an entry is added, removed or
renamed by its name, whatever it is.  Every run changes the table just as it
changes the environment, so that the table holds each built-in definition
untouched next to the definitions of the environment.
-/

namespace GraphingCalculator

/-- The definition with every reference to `old` turned to `new`.  A built-in
one refers to nothing. -/
def Definition.renameReferences (old new : Text) : Definition → Definition
  | builtinConstant constant => builtinConstant constant
  | builtinFunction function => builtinFunction function
  | user definition => user (definition.renameReferences old new)

namespace Environment

/-- A function reads the free variable, wherever its formula was compiled. -/
theorem IsReachable.usesVariable {environment : Environment}
    (reachable : environment.IsReachable) {name : Text} {formula : Formula}
    (found : environment.userDefinition? name = some (.function formula)) :
    formula.usesVariable = true := by
  refine reachable.forall_userDefinition
    (fun definition => ∀ formula, definition = .function formula →
      formula.usesVariable = true) ?_ ?_ found formula rfl
  · rintro environment defining definition isDefinition formula rfl
    obtain ⟨reads, same⟩ | ⟨-, value, -, isConstant⟩ :=
      definitionOf_eq_ok_iff.mp isDefinition
    · cases same
      exact reads
    · contradiction
  · rintro old new definition reads formula isRenamed
    cases definition with
    | constant value source => contradiction
    | function before =>
        rw [UserDefinition.renameReferences] at isRenamed
        split at isRenamed
        next =>
            cases isRenamed
            rw [Formula.usesVariable, Formula.rename,
              Expression.usesVariable_rename]
            exact reads before rfl
        next => exact reads formula isRenamed

end Environment

/-- All definitions under their names. -/
structure Table where
  limits : Limits
  entries : List (Text × Definition)
  generation : Nat

namespace Table

/-- The definition that is found under a name. -/
def definition? (table : Table) (name : Text) : Option Definition :=
  table.entries.lookup name

def builtinEntries : List (Text × Definition) :=
  BuiltinConstant.all.map
      (fun constant => (constant.name, .builtinConstant constant)) ++
    BuiltinFunction.all.map fun function =>
      (function.name, .builtinFunction function)

/-- A table with the built-in definitions only. -/
def initial (limits : Limits) : Table :=
  ⟨limits, builtinEntries, 0⟩

/-- An entry of the user. -/
def ofUser? : Text × Definition → Option (Text × UserDefinition)
  | (name, .user definition) => some (name, definition)
  | _ => none

/-- The environment in which sources are compiled and evaluated. -/
def environment (table : Table) : Environment :=
  ⟨table.limits, table.entries.filterMap ofUser?, table.generation⟩

/-- The table of an environment. -/
def ofEnvironment (environment : Environment) : Table where
  limits := environment.limits
  entries := environment.entries.map (fun (name, definition) =>
    (name, .user definition)) ++ builtinEntries
  generation := environment.generation

section Operations

def checkAvailable (table : Table) (name : Text) :
    Except DefinitionError Unit :=
  if name.isEmpty then .error .emptyName
  else if !isIdentifier name then .error (.invalidIdentifier name)
  else if name = variableName then .error .reservedVariable
  else
    match table.definition? name with
    | none => .ok ()
    | some (.builtinFunction _) => .error (.builtinFunction name)
    | some (.builtinConstant _) => .error (.builtinConstant name)
    | some (.user (.function _)) => .error (.duplicateFunction name)
    | some (.user (.constant _ _)) => .error (.duplicateConstant name)

/-- Add an entry, unless there is one of the same name. -/
def insert (table : Table) (name : Text) (definition : UserDefinition) :
    Table :=
  { table with
    entries :=
      match table.definition? name with
      | none => (name, .user definition) :: table.entries
      | some _ => table.entries
    generation := table.generation + 1 }

def register (table : Table) (name : Text) (formula : Formula) :
    Except DefinitionError (UserDefinition × Table) := do
  table.checkAvailable name
  let definition ← table.environment.definitionOf formula
  return (definition, table.insert name definition)

def define (table : Table) (name source : Text) :
    Except DefinitionError (UserDefinition × Table) := do
  table.checkAvailable name
  let formula ← (table.environment.compile source).mapError .invalidExpression
  table.register name formula

def processDefinition (table : Table) (text : Text) :
    Except DefinitionError (Text × Table) := do
  let parts ← SplitDefinition.ofText text
  let (_, defined) ← (table.define parts.name parts.expression).mapError
    (DefinitionError.shiftExpression parts.offset)
  return (parts.name, defined)

def remove (table : Table) (name : Text) : Option UserDefinition × Table :=
  match table.definition? name with
  | some (.user definition) =>
      (some definition,
        { table with
          entries := table.entries.filter fun (other, _) => other ≠ name
          generation := table.generation + 1 })
  | _ => (none, table)

def rename (table : Table) (old new : Text) : Except DefinitionError Table :=
  match table.definition? old with
  | some (.user _) =>
      if old = new then .ok table
      else do
        table.checkAvailable new
        return { table with
          entries := table.entries.map fun (name, definition) =>
            (Expression.renameName old new name,
              definition.renameReferences old new)
          generation := table.generation + 1 }
  | _ => .error (.notDefined old)

/-- The table after an operation. -/
def perform (table : Table) : Environment.Operation → Table
  | .register name formula =>
      match table.register name formula with
      | .ok (_, defined) => defined
      | .error _ => table
  | .define name source =>
      match table.define name source with
      | .ok (_, defined) => defined
      | .error _ => table
  | .processDefinition text =>
      match table.processDefinition text with
      | .ok (_, defined) => defined
      | .error _ => table
  | .remove name => (table.remove name).2
  | .rename old new =>
      match table.rename old new with
      | .ok renamed => renamed
      | .error _ => table

/-- The table after a sequence of operations. -/
def performAll (table : Table) (operations : List Environment.Operation) :
    Table :=
  operations.foldl perform table

end Operations

section Lookup

private theorem lookup_map_pair {Item : Type} (nameOf : Item → Text)
    (definitionOf : Item → Definition) (items : List Item) (name : Text) :
    (items.map fun item => (nameOf item, definitionOf item)).lookup name =
      (items.find? fun item => nameOf item = name).map definitionOf := by
  induction items with
  | nil => rfl
  | cons item rest ih =>
      by_cases same : nameOf item = name
      · simp [same]
      · have differs : (name == nameOf item) = false := by simp [Ne.symm same]
        simp [List.lookup_cons, differs, same, ih]

theorem lookup_builtinEntries (name : Text) :
    builtinEntries.lookup name = Environment.builtinDefinition? name := by
  rw [builtinEntries, List.lookup_append, lookup_map_pair, lookup_map_pair,
    Environment.builtinDefinition?, BuiltinConstant.ofName?,
    BuiltinFunction.ofName?]
  cases BuiltinConstant.all.find? fun constant => constant.name = name <;> rfl

theorem lookup_userEntries (entries : List (Text × UserDefinition))
    (name : Text) :
    (entries.map fun (key, definition) =>
        (key, Definition.user definition)).lookup name =
      (entries.lookup name).map .user := by
  induction entries with
  | nil => rfl
  | cons entry rest ih =>
      rw [List.map_cons, List.lookup_cons, List.lookup_cons]
      cases name == entry.1 with
      | true => rfl
      | false => exact ih

theorem builtinDefinition?_ne_user (name : Text)
    (definition : UserDefinition) :
    Environment.builtinDefinition? name ≠ some (.user definition) := by
  rw [Environment.builtinDefinition?]
  cases BuiltinConstant.ofName? name with
  | some constant => simp
  | none => cases BuiltinFunction.ofName? name <;> simp

end Lookup

section Protection

variable {table : Table} {name : Text}
variable (notUser :
  ∀ definition, table.definition? name ≠ some (.user definition))

include notUser

theorem remove_of_not_user : table.remove name = (none, table) := by
  rw [remove]
  split
  next definition isUser => exact absurd isUser (notUser definition)
  next => rfl

theorem rename_of_not_user (new : Text) :
    table.rename name new = .error (.notDefined name) := by
  rw [rename]
  split
  next definition isUser => exact absurd isUser (notUser definition)
  next => rfl

end Protection

section Simulation

variable {environment : Environment} {name old new : Text}

/-- The table of a reachable environment finds what the environment does: the
definitions of the user come first, but none of them is named as a built-in
one. -/
theorem definition?_ofEnvironment (reachable : environment.IsReachable)
    (name : Text) :
    (ofEnvironment environment).definition? name =
      environment.definition? name := by
  rw [definition?, ofEnvironment, List.lookup_append, lookup_userEntries,
    lookup_builtinEntries, Environment.definition?]
  cases found : environment.userDefinition? name with
  | none =>
      rw [Environment.userDefinition?] at found
      rw [found]
      cases Environment.builtinDefinition? name <;> rfl
  | some definition =>
      have notBuiltin : Environment.builtinDefinition? name = none :=
        reachable.not_builtin (by simp [found])
      rw [Environment.userDefinition?] at found
      rw [found, notBuiltin]
      rfl

theorem definition?_eq_user_iff (reachable : environment.IsReachable)
    {definition : UserDefinition} :
    (ofEnvironment environment).definition? name = some (.user definition) ↔
      environment.userDefinition? name = some definition := by
  rw [definition?_ofEnvironment reachable, Environment.definition?]
  cases builtin : Environment.builtinDefinition? name with
  | none => simp
  | some found =>
      have notUser := builtinDefinition?_ne_user name definition
      rw [builtin] at notUser
      have undefined : environment.userDefinition? name = none := by
        by_contra isDefined
        rw [reachable.not_builtin isDefined] at builtin
        contradiction
      simpa [undefined] using notUser

@[simp]
theorem environment_ofEnvironment (environment : Environment) :
    (ofEnvironment environment).environment = environment := by
  have noUser : builtinEntries.filterMap ofUser? = [] := rfl
  have isEntry : (ofUser? ∘ fun (entry : Text × UserDefinition) =>
      (entry.1, Definition.user entry.2)) = some := rfl
  rw [Table.environment, ofEnvironment, List.filterMap_append, noUser,
    List.append_nil, List.filterMap_map, isEntry, List.filterMap_some]

theorem checkAvailable_ofEnvironment (reachable : environment.IsReachable)
    (name : Text) :
    (ofEnvironment environment).checkAvailable name =
      environment.checkAvailable name := by
  have sameDefinition := definition?_ofEnvironment reachable name
  -- each check matches on the definition that it finds, and it is the same one
  unfold checkAvailable Environment.checkAvailable
  generalize (ofEnvironment environment).definition? name = found
    at sameDefinition ⊢
  subst sameDefinition
  rcases environment.definition? name with _ | _ | _ | _ | _ <;> rfl

theorem insert_ofEnvironment (reachable : environment.IsReachable)
    (available : environment.checkAvailable name = .ok ())
    (definition : UserDefinition) :
    (ofEnvironment environment).insert name definition =
      ofEnvironment (environment.insert name definition) := by
  obtain ⟨definable, free⟩ :=
    Environment.checkAvailable_eq_ok_iff.mp available
  rw [insert, definition?_ofEnvironment reachable,
    Environment.definition?_eq_none_iff.mpr ⟨definable.not_builtin, free⟩]
  rfl

theorem register_ofEnvironment (reachable : environment.IsReachable)
    (name : Text) (formula : Formula) :
    (ofEnvironment environment).register name formula =
      (environment.register name formula).map fun (definition, defined) =>
        (definition, ofEnvironment defined) := by
  rw [register, Environment.register, checkAvailable_ofEnvironment reachable,
    environment_ofEnvironment]
  cases available : environment.checkAvailable name with
  | error error => rfl
  | ok _ =>
      rw [ok_bind, ok_bind]
      cases environment.definitionOf formula with
      | error error => rfl
      | ok definition =>
          rw [ok_bind, ok_bind, insert_ofEnvironment reachable available]
          rfl

theorem define_ofEnvironment (reachable : environment.IsReachable)
    (name source : Text) :
    (ofEnvironment environment).define name source =
      (environment.define name source).map fun (definition, defined) =>
        (definition, ofEnvironment defined) := by
  rw [define, Environment.define, checkAvailable_ofEnvironment reachable,
    environment_ofEnvironment]
  cases environment.checkAvailable name with
  | error error => rfl
  | ok _ =>
      cases environment.compile source with
      | error error => rfl
      | ok formula => exact register_ofEnvironment reachable name formula

theorem processDefinition_ofEnvironment (reachable : environment.IsReachable)
    (text : Text) :
    (ofEnvironment environment).processDefinition text =
      (environment.processDefinition text).map fun (name, defined) =>
        (name, ofEnvironment defined) := by
  rw [processDefinition, Environment.processDefinition]
  cases SplitDefinition.ofText text with
  | error error => rfl
  | ok parts =>
      rw [ok_bind, ok_bind, define_ofEnvironment reachable]
      cases environment.define parts.name parts.expression <;> rfl

theorem ne_of_mem_builtinEntries {entry : Text × Definition}
    (isBuiltin : entry ∈ builtinEntries)
    (notBuiltin : Environment.builtinDefinition? name = none) :
    entry.1 ≠ name := by
  rintro rfl
  rw [← lookup_builtinEntries, List.lookup_eq_none_iff] at notBuiltin
  simpa using notBuiltin entry isBuiltin

theorem filter_builtinEntries
    (notBuiltin : Environment.builtinDefinition? name = none) :
    builtinEntries.filter (fun (other, _) => other ≠ name) =
      builtinEntries := by
  refine List.filter_eq_self.mpr fun entry isBuiltin => ?_
  exact decide_eq_true (ne_of_mem_builtinEntries isBuiltin notBuiltin)

theorem rename_builtinEntries
    (notBuiltin : Environment.builtinDefinition? old = none) (new : Text) :
    builtinEntries.map (fun (name, definition) =>
        (Expression.renameName old new name,
          definition.renameReferences old new)) = builtinEntries := by
  refine (List.map_congr_left fun entry isBuiltin => ?_).trans (List.map_id _)
  have sameName : Expression.renameName old new entry.1 = entry.1 :=
    Expression.renameName_of_ne (ne_of_mem_builtinEntries isBuiltin notBuiltin)
  have sameDefinition :
      entry.2.renameReferences old new = entry.2 := by
    rcases List.mem_append.mp isBuiltin with isConstant | isFunction
    · obtain ⟨constant, -, rfl⟩ := List.mem_map.mp isConstant
      rfl
    · obtain ⟨function, -, rfl⟩ := List.mem_map.mp isFunction
      rfl
  exact Prod.ext sameName sameDefinition

/-- A removal finds no entry to remove among the built-in ones. -/
theorem remove_ofEnvironment (reachable : environment.IsReachable)
    (name : Text) :
    (ofEnvironment environment).remove name =
      ((environment.remove name).1,
        ofEnvironment (environment.remove name).2) := by
  rw [Environment.remove]
  cases found : environment.userDefinition? name with
  | none =>
      refine remove_of_not_user fun definition isUser => ?_
      rw [definition?_eq_user_iff reachable, found] at isUser
      contradiction
  | some definition =>
      have notBuiltin : Environment.builtinDefinition? name = none :=
        reachable.not_builtin (by simp [found])
      rw [remove, (definition?_eq_user_iff reachable).mpr found]
      simp only [ofEnvironment, List.filter_append, List.filter_map,
        filter_builtinEntries notBuiltin]
      rfl

theorem rename_ofEnvironment (reachable : environment.IsReachable)
    (old new : Text) :
    (ofEnvironment environment).rename old new =
      (environment.rename old new).map ofEnvironment := by
  rw [Environment.rename]
  cases found : environment.userDefinition? old with
  | none =>
      refine rename_of_not_user (fun definition isUser => ?_) new
      rw [definition?_eq_user_iff reachable, found] at isUser
      contradiction
  | some definition =>
      have notBuiltin : Environment.builtinDefinition? old = none :=
        reachable.not_builtin (by simp [found])
      rw [rename, (definition?_eq_user_iff reachable).mpr found]
      dsimp only
      by_cases same : old = new
      · rw [if_pos same, if_pos same]
        rfl
      rw [if_neg same, if_neg same, checkAvailable_ofEnvironment reachable]
      cases environment.checkAvailable new with
      | error error => rfl
      | ok _ =>
          rw [ok_bind, ok_bind]
          change Except.ok _ = Except.ok _
          simp only [ofEnvironment, List.map_append, List.map_map,
            rename_builtinEntries notBuiltin]
          rfl

/-- An operation changes the table of an environment as it changes the
environment. -/
theorem perform_ofEnvironment (reachable : environment.IsReachable)
    (operation : Environment.Operation) :
    (ofEnvironment environment).perform operation =
      ofEnvironment (environment.perform operation) := by
  cases operation with
  | register name formula =>
      rw [perform, Environment.perform, register_ofEnvironment reachable]
      cases environment.register name formula <;> rfl
  | define name source =>
      rw [perform, Environment.perform, define_ofEnvironment reachable]
      cases environment.define name source <;> rfl
  | processDefinition text =>
      rw [perform, Environment.perform,
        processDefinition_ofEnvironment reachable]
      cases environment.processDefinition text <;> rfl
  | remove name => rw [perform, remove_ofEnvironment reachable]; rfl
  | rename old new =>
      rw [perform, Environment.perform, rename_ofEnvironment reachable]
      cases environment.rename old new <;> rfl

theorem performAll_ofEnvironment (reachable : environment.IsReachable)
    (operations : List Environment.Operation) :
    (ofEnvironment environment).performAll operations =
      ofEnvironment (environment.performAll operations) := by
  induction operations generalizing environment with
  | nil => rfl
  | cons operation rest ih =>
      rw [performAll, List.foldl_cons, perform_ofEnvironment reachable]
      exact ih (reachable.perform operation)

end Simulation

section WellFormed

/-- Every built-in definition is found under its name, and the names of the user
are none of these.  What is called a function is one that reads the free
variable. -/
structure IsWellFormed (table : Table) : Prop where
  constants : ∀ constant : BuiltinConstant,
    table.definition? constant.name = some (.builtinConstant constant)
  functions : ∀ function : BuiltinFunction,
    table.definition? function.name = some (.builtinFunction function)
  variableFree : table.definition? variableName = none
  named : ∀ name definition, table.definition? name = some (.user definition) →
    isIdentifier name = true ∧
      (∀ constant : BuiltinConstant, constant.name ≠ name) ∧
        ∀ function : BuiltinFunction, function.name ≠ name
  reads : ∀ name formula,
    table.definition? name = some (.user (.function formula)) →
      formula.usesVariable = true

theorem builtinDefinition?_constant (constant : BuiltinConstant) :
    Environment.builtinDefinition? constant.name =
      some (.builtinConstant constant) := by
  rw [Environment.builtinDefinition?, BuiltinConstant.ofName?_name]

theorem builtinDefinition?_function (function : BuiltinFunction) :
    Environment.builtinDefinition? function.name =
      some (.builtinFunction function) := by
  cases function <;> rfl

theorem isWellFormed_ofEnvironment {environment : Environment}
    (reachable : environment.IsReachable) :
    (ofEnvironment environment).IsWellFormed := by
  have ofBuiltin {name : Text} {definition : Definition}
      (builtin : Environment.builtinDefinition? name = some definition) :
      (ofEnvironment environment).definition? name = some definition := by
    rw [definition?_ofEnvironment reachable]
    exact Environment.definition?_of_builtin builtin environment
  constructor
  case constants =>
    exact fun constant => ofBuiltin (builtinDefinition?_constant constant)
  case functions =>
    exact fun function => ofBuiltin (builtinDefinition?_function function)
  case variableFree =>
    rw [definition?_ofEnvironment reachable,
      Environment.definition?_eq_none_iff]
    refine ⟨rfl, ?_⟩
    by_contra isDefined
    exact (reachable.isDefinable isDefined).not_variable rfl
  case named =>
    intro name definition isEntry
    rw [definition?_eq_user_iff reachable] at isEntry
    have definable : IsDefinable name :=
      reachable.isDefinable (by simp [isEntry])
    exact ⟨definable.identifier, definable.ne_constantName,
      definable.ne_functionName⟩
  case reads =>
    intro name formula isEntry
    rw [definition?_eq_user_iff reachable] at isEntry
    exact reachable.usesVariable isEntry

/-- Every run keeps the table of all names in order, and in step with the
environment: no built-in definition is hidden, renamed or removed, and what an
expression calls by name is a function of the user when it is compiled. -/
theorem isWellFormed_performAll (limits : Limits)
    (operations : List Environment.Operation) :
    let table := (initial limits).performAll operations
    let environment := (Environment.empty limits).performAll operations
    table.IsWellFormed ∧ table.environment = environment ∧
      (∀ name, table.definition? name = environment.definition? name) ∧
      (∀ name, Environment.builtinDefinition? name ≠ none →
        table.remove name = (none, table) ∧
          ∀ new, table.rename name new = .error (.notDefined name)) ∧
      ∀ source formula, environment.compile source = .ok formula →
        ∀ name ∈ formula.expression.callees, ∃ called,
          table.definition? name = some (.user (.function called)) := by
  intro table environment
  have reachable : environment.IsReachable :=
    (Environment.IsReachable.empty limits).performAll operations
  have isTable : table = ofEnvironment environment :=
    performAll_ofEnvironment (.empty limits) operations
  rw [isTable]
  refine ⟨isWellFormed_ofEnvironment reachable,
    environment_ofEnvironment environment, definition?_ofEnvironment reachable,
    fun name isBuiltin => ?_, fun source formula compiles name isCallee => ?_⟩
  · have notUser (definition : UserDefinition) :
        (ofEnvironment environment).definition? name ≠
          some (.user definition) := by
      rw [Ne, definition?_eq_user_iff reachable]
      intro found
      exact isBuiltin (reachable.not_builtin (by simp [found]))
    exact ⟨remove_of_not_user notUser, rename_of_not_user notUser⟩
  obtain ⟨body, isFunction⟩ :=
    (Environment.isResolved_compile compiles).exists_of_mem_callees isCallee
  obtain ⟨definition, isDefined, isBody⟩ :=
    Option.map_eq_some_iff.mp isFunction
  cases definition with
  | constant value source => contradiction
  | function called =>
      exact ⟨called, (definition?_eq_user_iff reachable).mpr isDefined⟩

end WellFormed

end Table
end GraphingCalculator
