import GraphingCalculator.Proofs.Worksheet.Freshness
import GraphingCalculator.Worksheet.Dependents
import Mathlib.Logic.Relation

/-!
# Rows that depend on each other

A row depends on another one if it mentions its name, or mentions a row that
depends on it.  Whatever a row reads of another row, it depends on: evaluations
follow the functions of rows, whose expressions refer to nothing but what their
bodies mention.  The search for dependents finds all of them.
-/

namespace GraphingCalculator
namespace Worksheet

variable {start : Environment} {present : Text → Text}
variable {sheet : Worksheet}

/-- The row with the first name mentions the second name. -/
def Mentions (sheet : Worksheet) (name target : Text) : Prop :=
  ∃ row ∈ sheet.rows, row.name = name ∧ mentions row.body target = true

/-- The row with the first name mentions the second name, possibly by way of
other rows. -/
def DependsOn (sheet : Worksheet) : Text → Text → Prop :=
  Relation.TransGen sheet.Mentions

theorem DependsOn.mem_names {name target : Text}
    (depends : sheet.DependsOn name target) : name ∈ sheet.names := by
  obtain ⟨middle, ⟨row, member, rfl, -⟩, -⟩ :=
    Relation.TransGen.head'_iff.mp depends
  exact List.mem_map_of_mem member

namespace IsConsistent

/-- The definition of a row refers to nothing that the row does not mention. -/
theorem mentions_of_refersTo
    (consistent : IsConsistent start present (fun _ => False) sheet)
    {row : Row} (member : row ∈ sheet.rows) {definition : UserDefinition}
    (isDefined :
      sheet.environment.userDefinition? row.name = some definition)
    {target : Text} (refers : definition.RefersTo target) :
    mentions row.body target = true := by
  obtain ⟨index, found⟩ := List.getElem?_of_mem member
  have settled := consistent.settled index row found id
  have notBuiltin := (consistent.definable _ (name_mem found)).not_builtin
  obtain ⟨formula, rfl, refers⟩ := refers
  have agrees := settled.agrees
  unfold Row.Agrees at agrees
  rw [Environment.definition?_of_not_builtin notBuiltin, isDefined] at agrees
  cases isState : row.state with
  | blank | failed error => simp [isState] at agrees
  | compiled other =>
      simp only [isState] at agrees
      obtain ⟨-, agrees⟩ := agrees
      split at agrees
      next =>
          obtain rfl : formula = other := by simpa using agrees
          exact settled.mentioned formula (by simp [Row.formula?, isState])
            target refers
      next => simp at agrees

/-- What is reached from the name of a row on the way to a row is the name of a
row as well. -/
theorem dependsOn_of_reaches
    (consistent : IsConsistent start present (fun _ => False) sheet)
    (keepsApart : sheet.KeepsApart) {name target : Text}
    (reaches : sheet.environment.Reaches name target)
    (isRow : target ∈ sheet.names) :
    name = target ∨ sheet.DependsOn name target := by
  induction reaches with
  | self => exact .inl rfl
  | @through name next target expression isFunction refers reaches ih =>
      have nextIsRow : next ∈ sheet.names := by
        rcases ih isRow with rfl | depends
        · exact isRow
        · exact depends.mem_names
      obtain ⟨definition, isDefined, isMeaning⟩ :=
        Option.map_eq_some_iff.mp isFunction
      have refersTo :=
        UserDefinition.refersTo_of_meaning isMeaning refers
      have nameIsRow : name ∈ sheet.names := by
        by_contra notRow
        exact (keepsApart name definition notRow isDefined next refersTo).2
          nextIsRow
      obtain ⟨row, member, rfl⟩ := List.mem_map.mp nameIsRow
      have mentioned : sheet.Mentions row.name next :=
        ⟨row, member, rfl,
          consistent.mentions_of_refersTo member isDefined refersTo⟩
      rcases ih isRow with rfl | depends
      · exact .inr (.single mentioned)
      · exact .inr (.head mentioned depends)

/-- A row depends on the rows that it reads. -/
theorem dependsOn_of_reads
    (consistent : IsConsistent start present (fun _ => False) sheet)
    (keepsApart : sheet.KeepsApart) {row : Row} (member : row ∈ sheet.rows)
    {target : Text} (reads : row.Reads sheet.environment target)
    (isRow : target ∈ sheet.names) : sheet.DependsOn row.name target := by
  obtain ⟨next, mentioned, reaches⟩ := reads
  have direct : sheet.Mentions row.name next := ⟨row, member, rfl, mentioned⟩
  rcases consistent.dependsOn_of_reaches keepsApart reaches isRow with
    rfl | depends
  · exact .single direct
  · exact .head direct depends

end IsConsistent

/-- The search finds the rows that mention a pending name. -/
theorem mem_dependents_of_mentions {rows : IndexedRows} {pending : List Text}
    {index : Nat} {row : Row} (member : (index, row) ∈ rows) {name : Text}
    (isPending : name ∈ pending) (mentioned : mentions row.body name = true) :
    index ∈ dependents rows pending := by
  induction rows, pending using dependents.induct with
  | case1 => contradiction
  | case2 rows first pending found ih =>
      rw [dependents, List.mem_append]
      by_cases isFound : mentions row.body first = true
      · exact .inl (List.mem_map.mpr
          ⟨(index, row), List.mem_filter.mpr ⟨member, isFound⟩, rfl⟩)
      · refine .inr (ih (List.mem_filter.mpr ⟨member, by simpa using isFound⟩)
          (List.mem_append_right _ ?_))
        refine (List.mem_cons.mp isPending).resolve_left ?_
        rintro rfl
        exact isFound mentioned

/-- With each row the search finds the rows that mention it. -/
theorem dependents_closed {rows : IndexedRows} {pending : List Text}
    {found : Nat} (isFound : found ∈ dependents rows pending) :
    ∃ row, (found, row) ∈ rows ∧ ∀ index other, (index, other) ∈ rows →
      mentions other.body row.name = true →
        index ∈ dependents rows pending := by
  induction rows, pending using dependents.induct with
  | case1 => simp [dependents] at isFound
  | case2 rows first pending direct ih =>
      rw [dependents] at isFound ⊢
      rw [List.mem_append] at isFound
      -- A row that mentions the first name is found at once.  Any other row
      -- is found later, once the name of the row that it mentions is pending.
      have closes {names : List Text} (row : Row) (later : ∀ index other,
          (index, other) ∈ rows.notMentioning first →
            mentions other.body row.name = true →
              index ∈ dependents (rows.notMentioning first) names)
          (index : Nat) (other : Row) (member : (index, other) ∈ rows)
          (mentioned : mentions other.body row.name = true) :
          index ∈ direct.map Prod.fst ++
            dependents (rows.notMentioning first) names := by
        rw [List.mem_append]
        by_cases isDirect : mentions other.body first = true
        · exact .inl (List.mem_map.mpr
            ⟨(index, other), List.mem_filter.mpr ⟨member, isDirect⟩, rfl⟩)
        · exact .inr (later index other
            (List.mem_filter.mpr ⟨member, by simpa using isDirect⟩) mentioned)
      rcases isFound with isDirect | isLater
      · obtain ⟨⟨place, row⟩, member, rfl⟩ := List.mem_map.mp isDirect
        refine ⟨row, (List.mem_filter.mp member).1, closes row ?_⟩
        intro index other isOther mentioned
        refine mem_dependents_of_mentions isOther
          (List.mem_append_left _ ?_) mentioned
        exact List.mem_map.mpr
          ⟨(place, row), List.mem_reverse.mpr member, rfl⟩
      · obtain ⟨row, member, later⟩ := ih isLater
        exact ⟨row, (List.mem_filter.mp member).1, closes row later⟩

/-- The search finds a row by a pending name, or by the name of a row that it
found before. -/
theorem exists_cause_of_dependents {rows : IndexedRows} {pending : List Text}
    {before after : List Nat} {index : Nat}
    (split : dependents rows pending = before ++ index :: after) :
    ∃ row, (index, row) ∈ rows ∧ ∃ name, mentions row.body name = true ∧
      (name ∈ pending ∨ ∃ earlier ∈ before, ∃ other,
        (earlier, other) ∈ rows ∧ other.name = name) := by
  revert before
  induction rows, pending using dependents.induct with
  | case1 => simp [dependents]
  | case2 rows first pending direct =>
      rename_i ih
      intro before split
      have inDirect (place : Nat) (member : place ∈ direct.map Prod.fst) :
          ∃ row, (place, row) ∈ rows ∧ mentions row.body first = true := by
        obtain ⟨⟨place, row⟩, isDirect, rfl⟩ := List.mem_map.mp member
        exact ⟨row, List.mem_filter.mp isDirect⟩
      -- A row that is found later has a cause there, and the names that were
      -- added to the pending ones belong to rows that were found at once.
      have isLater (rest : List Nat)
          (split : dependents (rows.notMentioning first)
            (direct.reverse.map (fun found => found.2.name) ++ pending) =
              rest ++ index :: after) :
          ∃ row, (index, row) ∈ rows ∧ ∃ name, mentions row.body name = true ∧
            (name ∈ first :: pending ∨ ∃ earlier ∈ direct.map Prod.fst ++ rest,
              ∃ other, (earlier, other) ∈ rows ∧ other.name = name) := by
        obtain ⟨row, member, name, mentioned, cause⟩ := ih split
        refine ⟨row, (List.mem_filter.mp member).1, name, mentioned, ?_⟩
        rcases cause with isPending | ⟨earlier, isEarlier, other, isOther, same⟩
        · rcases List.mem_append.mp isPending with isName | isPending
          · obtain ⟨⟨earlier, other⟩, found, rfl⟩ := List.mem_map.mp isName
            have isDirect := List.mem_reverse.mp found
            exact .inr ⟨earlier, List.mem_append_left _
              (List.mem_map_of_mem isDirect), other,
              (List.mem_filter.mp isDirect).1, rfl⟩
          · exact .inl (List.mem_cons_of_mem first isPending)
        · exact .inr ⟨earlier, List.mem_append_right _ isEarlier, other,
            (List.mem_filter.mp isOther).1, same⟩
      rw [dependents, List.append_eq_append_iff] at split
      rcases split with ⟨rest, rfl, split⟩ | ⟨found, isFound, split⟩
      · exact isLater rest split
      · cases found with
        | nil =>
            rw [List.append_nil] at isFound
            have cause := isLater [] split.symm
            rwa [List.append_nil, isFound] at cause
        | cons place found =>
            obtain ⟨rfl, -⟩ := List.cons.inj split
            obtain ⟨row, member, mentioned⟩ := inDirect index
              (isFound ▸ List.mem_append_right before List.mem_cons_self)
            exact ⟨row, member, first, mentioned, .inl List.mem_cons_self⟩

/-- What holds of the rows that mention a pending name, and of those that
mention a row of which it holds, holds of all rows that the search finds. -/
theorem dependents_induct {rows : IndexedRows} {pending : List Text}
    {property : Nat → Prop}
    (direct : ∀ index row, (index, row) ∈ rows → ∀ name ∈ pending,
      mentions row.body name = true → property index)
    (step : ∀ index row, (index, row) ∈ rows → ∀ earlier other,
      (earlier, other) ∈ rows → mentions row.body other.name = true →
        property earlier → property index)
    {index : Nat} (found : index ∈ dependents rows pending) :
    property index := by
  obtain ⟨before, after, split⟩ := List.append_of_mem found
  -- The induction is on the number of rows that were found before.
  induction isLength : before.length using Nat.strong_induction_on
      generalizing index before after with
  | _ length ih =>
      obtain ⟨row, member, name, mentioned, cause⟩ :=
        exists_cause_of_dependents split
      rcases cause with isPending | ⟨earlier, isEarlier, other, isOther, rfl⟩
      · exact direct index row member name isPending mentioned
      · obtain ⟨first, rest, rfl⟩ := List.append_of_mem isEarlier
        refine step index row member earlier other isOther mentioned
          (ih first.length ?_ ?_ first (rest ++ index :: after) ?_ rfl)
        · rw [← isLength, List.length_append, List.length_cons]
          omega
        · rw [split]
          simp
        · rw [split]
          simp

end Worksheet
end GraphingCalculator
