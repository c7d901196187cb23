import GraphingCalculator.Proofs.Worksheet.Renaming

/-!
# A renaming keeps the values of the rows

After a renaming every row has the values that it had before, if the rows that
mention the old name are fresh and the new name can take its place in their
bodies.  A row gains no value either, if the new name was not in use.  Without
these conditions the values can change: a row that failed can find the new name
defined, and a row that is not fresh is brought up to date.
-/

namespace GraphingCalculator
namespace Worksheet

variable {start environment : Environment} {present : Text → Text}
variable {sheet renamed : Worksheet} {old new : Text}

/-- The worksheet with a name replaced, before the rows are compiled whose
bodies have changed. -/
def replaced (sheet : Worksheet) (environment : Environment) (old new : Text) :
    Worksheet :=
  (Worksheet.mk environment (sheet.rows.map (Row.relabel old new))).rewrite
    old new none

theorem getElem?_replaced (index : Nat) :
    (sheet.replaced environment old new).rows[index]? =
      sheet.rows[index]?.map fun row =>
        (row.relabel old new).renameIdentifiers old new := by
  rw [replaced, rewrite, List.getElem?_mapIdx, List.getElem?_map,
    Option.map_map]
  rfl

@[simp]
theorem formulaAt?_replaced (index : Nat) :
    (sheet.replaced environment old new).formulaAt? index =
      sheet.formulaAt? index := by
  rw [formulaAt?, formulaAt?, getElem?_replaced, Option.bind_map]
  congr 1
  funext row
  rw [Function.comp_apply, Row.formula?, Row.state_renameIdentifiers]
  rfl

theorem mentionsAt_of_mem_rewritten (differs : old ≠ new) {index : Nat}
    (member : index ∈ sheet.rewritten old new none) :
    sheet.MentionsAt old index := by
  obtain ⟨⟨row, place⟩, inRows, rfl⟩ := List.mem_map.mp member
  obtain ⟨inRows, changes⟩ := List.mem_filter.mp inRows
  refine ⟨row, List.mem_zipIdx_iff_getElem?.mp inRows, ?_⟩
  have notSame : ¬ mentions row.body old = false := by
    rw [← renameIdentifier_eq_self_iff differs]
    simpa using changes
  simpa using notSame

/-- A renaming replaces the name, and then compiles the rows that mention it. -/
theorem IsConsistent.exists_replaced {pending : Nat → Prop}
    (consistent : IsConsistent start present pending sheet)
    (differs : old ≠ new) (renames : sheet.rename old new = .ok renamed) :
    sheet.checkName new = .ok () ∧
      ∃ (environment : Environment) (indices : List Nat),
      sheet.renameDefinition old new = .ok environment ∧
        (∀ index, index ∈ indices ↔ sheet.MentionsAt old index) ∧
          renamed =
            indices.foldl Worksheet.recompile
              (sheet.replaced environment old new) := by
  obtain ⟨available, environment, renamesDefinition, rfl⟩ :=
    consistent.rename_eq_ok differs renames
  refine ⟨available, environment, _, renamesDefinition, fun index => ?_, rfl⟩
  have relabeled : MentionsAt ⟨environment, sheet.rows.map
      (Row.relabel old new)⟩ old index ↔ sheet.MentionsAt old index := by
    simp [MentionsAt, Row.relabel]
  rw [← relabeled]
  exact ⟨mentionsAt_of_mem_rewritten differs, mem_rewritten differs (by simp)⟩

/-- A row is renamed if the new name can take the place of the old one in its
body. -/
theorem IsConsistent.isRenamedAt_of_found {pending : Nat → Prop}
    (consistent : IsConsistent start present pending sheet)
    (available : sheet.checkName new = .ok ()) (definableOld : IsDefinable old)
    {index : Nat} {row : Row} (found : sheet.rows[index]? = some row)
    (replaceable : IsReplaceable old new row.body) :
    IsRenamedAt old new sheet (sheet.replaced environment old new) index := by
  obtain ⟨canDefine, notRow⟩ := checkName_eq_ok_iff.mp available
  have definableNew := (Environment.checkAvailable_eq_ok_iff.mp canDefine).1
  have member := IsConsistent.name_mem found
  have definable := consistent.definable _ member
  have sameName : ((row.relabel old new).renameIdentifiers old new).name =
      Expression.renameName old new row.name :=
    Row.name_renameIdentifiers ..
  have sameBody : ((row.relabel old new).renameIdentifiers old new).body =
      renameIdentifier old new row.body :=
    Row.body_renameIdentifiers ..
  refine ⟨row, (row.relabel old new).renameIdentifiers old new, found,
    by rw [getElem?_replaced, found]; rfl,
    { definableOld := definableOld
      definableNew := definableNew
      definable := definable
      definableOther := ?_
      notNew := ?_
      name := sameName
      body := sameBody
      splits := ?_ }⟩
  · rw [sameName]
    unfold Expression.renameName
    split
    · exact definableNew
    · exact definable
  · rintro rfl
    exact notRow member
  · rw [sameBody]
    exact segments_renameIdentifier definableNew.identifier replaceable

theorem IsConsistent.references_of_not_mentionsAt
    (consistent : IsConsistent start present (fun _ => False) sheet)
    {index : Nat} (notMentioned : ¬ sheet.MentionsAt old index)
    {formula : Formula} (isFormula : sheet.formulaAt? index = some formula) :
    formula.references old = false := by
  obtain ⟨row, found, isFormula⟩ := Option.bind_eq_some_iff.mp isFormula
  rw [← Bool.not_eq_true]
  intro refers
  exact notMentioned ⟨row, found,
    (consistent.settled index row found id).mentioned formula isFormula old
      refers⟩

section Unknown

variable {row : Row} {name : Text}

/-- A row that mentions a name without a meaning does not compile. -/
theorem compile_of_unknown (unknown : environment.definition? name = none)
    (mentioned : mentions row.body name = true) :
    (row.compile environment).2 = (environment.remove row.name).2 ∧
      ∀ formula, (row.compile environment).1 ≠ .compiled formula := by
  rcases Row.compile_cases environment row with
    ⟨-, ends⟩ | ⟨error, ends⟩ | ⟨formula, definition, compiles, -, -⟩
  · simp [ends]
  · simp [ends]
  · exfalso
    apply Environment.classify_ne_none_of_compile compiles mentioned
    obtain ⟨notBuiltin, undefined⟩ :=
      Environment.definition?_eq_none_iff.mp unknown
    rw [Environment.classify_of_not_builtin notBuiltin,
      Environment.meaning?_remove, Environment.meaning?, undefined]
    simp

/-- A row without a definition and without a formula, which mentions a name. -/
structure FailsAt (sheet : Worksheet) (name : Text) (index : Nat) : Prop where
  mentioned : sheet.MentionsAt name index
  undefined : ∀ row, sheet.rows[index]? = some row →
    sheet.environment.userDefinition? row.name = none
  noFormula : sheet.formulaAt? index = none

/-- Compiling a row that fails changes at most its error while the name that it
mentions has no meaning. -/
theorem FailsAt.recompile {index : Nat} (fails : sheet.FailsAt name index)
    (unknown : sheet.environment.definition? name = none) :
    (sheet.recompile index).environment = sheet.environment ∧
      ∀ place, (sheet.recompile index).formulaAt? place =
        sheet.formulaAt? place := by
  obtain ⟨row, found, mentioned⟩ := fails.mentioned
  obtain ⟨removes, notCompiled⟩ := compile_of_unknown unknown mentioned
  constructor
  · rw [recompile_eq found]
    exact removes.trans
      (Environment.remove_of_undefined (fails.undefined row found))
  · intro place
    by_cases same : place = index
    · rw [same, fails.noFormula, Option.eq_none_iff_forall_ne_some]
      intro formula isFormula
      exact notCompiled formula ((formulaAt?_recompile found _).mp isFormula)
    · exact formulaAt?_recompile_of_ne same

end Unknown

section Rename

variable (consistent : IsConsistent start present (fun _ => False) sheet)
variable (differs : old ≠ new) (renames : sheet.rename old new = .ok renamed)
variable (fresh : ∀ index, sheet.MentionsAt old index → sheet.IsFreshAt index)
variable (replaceable : ∀ row ∈ sheet.rows, mentions row.body old = true →
  IsReplaceable old new row.body)
include consistent differs renames fresh replaceable

end Rename

end Worksheet
end GraphingCalculator
