import GraphingCalculator.Proofs.Worksheet.Agreement
import Mathlib.Order.Bounds.Basic

/-!
# The name of an inserted row

A new row gets the default name of its place, unless that is taken: then the
numbers above it are tried one after the other.  Nothing bounds this search but
the names themselves.  Default names of different numbers are different, and no
more of them can be taken than there are definitions and rows, and so the search
ends at the least number that is free.
-/

namespace GraphingCalculator
namespace Worksheet

variable {sheet : Worksheet} {first last rounds : Nat}

/-- The search for a default name goes from the first number to the last one, in
a number of rounds.  Each of them passes a number whose name is taken. -/
inductive FindsNumber (sheet : Worksheet) : Nat → Nat → Nat → Prop
  | free {number : Nat}
      (isFree : sheet.isTaken (Row.defaultName number) = false) :
      sheet.FindsNumber 0 number number
  | taken {rounds number last : Nat}
      (isTaken : sheet.isTaken (Row.defaultName number) = true)
      (finds : sheet.FindsNumber rounds (number + 1) last) :
      sheet.FindsNumber (rounds + 1) number last

/-- The numbers from a first one on whose default names neither a definition nor
a row carries. -/
def freeNumbers (sheet : Worksheet) (first : Nat) : Set Nat :=
  {number | first ≤ number ∧
    sheet.environment.contains (Row.defaultName number) = false ∧
      ∀ row ∈ sheet.rows, row.name ≠ Row.defaultName number}

theorem mem_freeNumbers_iff {number : Nat} :
    number ∈ sheet.freeNumbers first ↔
      first ≤ number ∧ sheet.isTaken (Row.defaultName number) = false := by
  rw [isTaken_eq_false_iff]
  simp [freeNumbers, names]

/-- A search that meets taken names only until it meets a free one passes all of
them. -/
theorem findsNumber_of_isTaken
    (isFree : sheet.isTaken (Row.defaultName (first + rounds)) = false)
    (areTaken : ∀ number, first ≤ number → number < first + rounds →
      sheet.isTaken (Row.defaultName number) = true) :
    sheet.FindsNumber rounds first (first + rounds) := by
  induction rounds generalizing first with
  | zero => exact .free isFree
  | succ rounds ih =>
      have further : first + (rounds + 1) = first + 1 + rounds := by omega
      rw [further] at isFree areTaken ⊢
      refine .taken (areTaken first le_rfl (by omega)) (ih isFree ?_)
      intro number notBefore before
      exact areTaken number (by omega) before

/-- No free number is passed, and the last one is free. -/
theorem FindsNumber.isLeast (finds : sheet.FindsNumber rounds first last) :
    IsLeast (sheet.freeNumbers first) last := by
  induction finds with
  | free isFree =>
      refine ⟨mem_freeNumbers_iff.mpr ⟨le_rfl, isFree⟩, ?_⟩
      intro number isNumber
      exact (mem_freeNumbers_iff.mp isNumber).1
  | @taken rounds number last isTaken finds ih =>
      obtain ⟨inFurther, least⟩ := ih
      obtain ⟨notBefore, isFree⟩ := mem_freeNumbers_iff.mp inFurther
      refine ⟨mem_freeNumbers_iff.mpr ⟨by omega, isFree⟩, ?_⟩
      intro other isOther
      obtain ⟨notBelow, isFreeOther⟩ := mem_freeNumbers_iff.mp isOther
      have differs : other ≠ number := by
        rintro rfl
        rw [isTaken] at isFreeOther
        contradiction
      exact least (mem_freeNumbers_iff.mpr ⟨by omega, isFreeOther⟩)

/-- The free name is the one that the search finds, after at most one round for
each definition and each row. -/
theorem exists_findsNumber (sheet : Worksheet) (first : Nat) :
    ∃ rounds ≤ sheet.environment.entries.length + sheet.rows.length,
      sheet.FindsNumber rounds first (first + rounds) ∧
        sheet.freeName first = Row.defaultName (first + rounds) := by
  obtain ⟨slot, isName, inRange, isFree, areTaken⟩ :=
    exists_freeName_eq sheet first
  rw [List.mem_range'_1] at inRange
  obtain ⟨rounds, rfl⟩ := Nat.exists_eq_add_of_le inRange.1
  exact ⟨rounds, by omega, findsNumber_of_isTaken isFree areTaken, isName⟩

theorem insertIdx_length_append {Entry : Type} (before after : List Entry)
    (entry : Entry) :
    (before ++ after).insertIdx before.length entry =
      before ++ entry :: after := by
  induction before with
  | nil => rfl
  | cons first rest ih =>
      rw [List.cons_append, List.length_cons, List.insertIdx_succ_cons, ih,
        List.cons_append]

/-- A new row stands between the rows before its place and those behind. -/
theorem insertRow_eq {index : Nat} {before after : List Row}
    (split : before ++ after = sheet.rows)
    (isPlace : before.length = min index sheet.rows.length) :
    sheet.insertRow index = (before.length, ⟨sheet.environment,
      before ++ .empty (sheet.freeName (before.length + 1)) :: after⟩) := by
  rw [insertRow, ← isPlace, ← split, insertIdx_length_append]

/-- Inserting a row always ends.  A blank row stands then at the place that was
asked for, or at the end, and the rows before and behind it are the ones from
before.  The new row has the default name of the least number above its place
that is free, and the environment is the same as before. -/
theorem insertRow_finds_least (sheet : Worksheet) (index : Nat) :
    ∃ before after number row,
      before ++ after = sheet.rows ∧
      before.length = min index sheet.rows.length ∧
      sheet.insertRow index =
        (before.length, ⟨sheet.environment, before ++ row :: after⟩) ∧
      row.name = Row.defaultName number ∧
      row.text = row.name ++ " = ".toList ∧ row.body = [] ∧
      row.offset = Text.byteSize row.text ∧ row.state = .blank ∧
      row.isEnabled = true ∧
      IsLeast (sheet.freeNumbers (before.length + 1)) number ∧
      ∃ rounds ≤ sheet.environment.entries.length + sheet.rows.length,
        sheet.FindsNumber rounds (before.length + 1) number := by
  have split := List.take_append_drop index sheet.rows
  have isPlace : (sheet.rows.take index).length =
      min index sheet.rows.length := List.length_take
  generalize sheet.rows.take index = before at split isPlace
  obtain ⟨rounds, few, finds, isName⟩ :=
    exists_findsNumber sheet (before.length + 1)
  exact ⟨before, _, _, _, split, isPlace, insertRow_eq split isPlace, isName,
    rfl, rfl, rfl, rfl, rfl, finds.isLeast, rounds, few, finds⟩

/-- The names of rows that were inserted out of order, beside a definition from
the start. -/
example :
    ((ofEnvironment
        ((Environment.empty {}).insert "y4".toList (.constant 2 ['2']))
        ).performAll [.pushRow, .insertRow 0, .insertRow 1, .pushRow]).names =
      ["y2".toList, "y3".toList, "y1".toList, "y5".toList] := by
  decide +kernel

end Worksheet
end GraphingCalculator
