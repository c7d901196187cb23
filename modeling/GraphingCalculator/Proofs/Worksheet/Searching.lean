import GraphingCalculator.Proofs.Worksheet.Refreshing
import GraphingCalculator.Proofs.Worksheet.Shifting

/-!
# The search for dependent rows

The rows that depend on a name are found by a search that compiles each row as
soon as it is found.  In each round the search takes the name that was added
last, looks at the rows in order, and adds the names of the rows that it
compiles.  A flag for every row keeps it from being compiled again.  However the
rows mention each other, there is one round for the first name and one for each
row that is compiled, and then no name is left.
-/

namespace GraphingCalculator
namespace Worksheet

/-- The row at an index depends on a name: it is not skipped, and it mentions
the name or another such row. -/
inductive IsDependent (sheet : Worksheet) (name : Text) (skipped : Option Nat) :
    Nat → Prop
  | direct {index : Nat} (notSkipped : skipped ≠ some index)
      (mentioned : sheet.MentionsAt name index) :
      sheet.IsDependent name skipped index
  | through {index other : Nat} (notSkipped : skipped ≠ some index)
      (refers : sheet.RefersAt index other)
      (depends : sheet.IsDependent name skipped other) :
      sheet.IsDependent name skipped index

theorem map_fst_indexed {Entry : Type} (entries : List Entry) :
    (entries.zipIdx.map Prod.swap).map Prod.fst =
      List.range entries.length := by
  have indices := List.zipIdx_map_snd 0 entries
  rw [← List.range_eq_range'] at indices
  rw [List.map_map, ← indices]
  rfl

/-- A search on its way.  The name that is pending first was added last, and the
rows that were compiled are listed in order. -/
structure Search where
  sheet : Worksheet
  visited : List Bool
  pending : List Text
  compiled : List Nat

namespace Search

/-- The search for the rows that depend on a name.  A row that is skipped counts
as visited. -/
def start (sheet : Worksheet) (name : Text) (skipped : Option Nat) :
    Search where
  sheet
  visited :=
    let unvisited := List.replicate sheet.rows.length false
    match skipped with
    | none => unvisited
    | some index => unvisited.set index true
  pending := [name]
  compiled := []

/-- Check that a row was not visited and mentions a name. -/
def awaits (search : Search) (name : Text) (index : Nat) : Bool :=
  search.visited[index]? = some false &&
    search.sheet.rows[index]?.any fun row => mentions row.body name

/-- Mark a row, compile it, and add its name. -/
def compile (search : Search) (index : Nat) : Search :=
  let sheet := search.sheet.recompile index
  { sheet
    visited := search.visited.set index true
    pending := sheet.names[index]?.toList ++ search.pending
    compiled := search.compiled ++ [index] }

/-- Look at a row, and compile it if it mentions a name. -/
def visit (name : Text) (search : Search) (index : Nat) : Search :=
  if search.awaits name index then search.compile index else search

/-- The next round looks at all rows for the name that was added last. -/
def next? (search : Search) : Option Search :=
  match search.pending with
  | [] => none
  | name :: pending =>
      some ((List.range search.sheet.rows.length).foldl (visit name)
        { search with pending })

/-- The search ends after a number of rounds. -/
inductive Ends : Nat → Search → Search → Prop
  | done {search : Search} (isLast : search.next? = none) : Ends 0 search search
  | round {search next last : Search} {rounds : Nat}
      (isNext : search.next? = some next) (ends : Ends rounds next last) :
      Ends (rounds + 1) search last

section Rounds

variable {name : Text}

/-- Compiling a row does not decide whether another one is compiled. -/
theorem awaits_compile_of_ne {index other : Nat} (differs : other ≠ index)
    (search : Search) :
    (search.compile index).awaits name other = search.awaits name other := by
  have notCompiled : other ∉ [index] := by simpa using differs
  have sameRow : (search.sheet.recompile index).rows[other]? =
      search.sheet.rows[other]? :=
    getElem?_recompileAll notCompiled search.sheet
  rw [awaits, awaits, compile, sameRow,
    List.getElem?_set_ne (Ne.symm differs)]

/-- A round compiles the rows that were awaiting it at its beginning. -/
theorem foldl_visit {indices : List Nat} (distinct : indices.Nodup)
    (search : Search) :
    indices.foldl (visit name) search =
      (indices.filter (search.awaits name)).foldl compile search := by
  induction indices generalizing search with
  | nil => rfl
  | cons index rest ih =>
      obtain ⟨notAgain, distinctRest⟩ := List.nodup_cons.mp distinct
      rw [List.foldl_cons, ih distinctRest, visit]
      by_cases isAwaiting : search.awaits name index = true
      · have sameRest : rest.filter ((search.compile index).awaits name) =
            rest.filter (search.awaits name) := by
          refine List.filter_congr fun other member => ?_
          refine awaits_compile_of_ne ?_ search
          rintro rfl
          exact notAgain member
        rw [if_pos isAwaiting, List.filter_cons_of_pos isAwaiting, sameRest,
          List.foldl_cons]
      · rw [if_neg isAwaiting, List.filter_cons_of_neg isAwaiting]

theorem sheet_compileAll (search : Search) (indices : List Nat) :
    (indices.foldl compile search).sheet =
      indices.foldl recompile search.sheet := by
  induction indices generalizing search with
  | nil => rfl
  | cons index rest ih => exact ih (search.compile index)

theorem compiled_compileAll (search : Search) (indices : List Nat) :
    (indices.foldl compile search).compiled = search.compiled ++ indices := by
  induction indices generalizing search with
  | nil => exact (List.append_nil _).symm
  | cons index rest ih =>
      rw [List.foldl_cons, ih, compile, List.append_assoc]
      rfl

theorem pending_compileAll (search : Search) (indices : List Nat) :
    (indices.foldl compile search).pending =
      indices.reverse.filterMap (search.sheet.names[·]?) ++ search.pending := by
  induction indices generalizing search with
  | nil => rfl
  | cons index rest ih =>
      have sameNames : (search.sheet.recompile index).names =
          search.sheet.names :=
        names_of_outline (outline_recompile search.sheet index)
      have isLast : [index].filterMap (search.sheet.names[·]?) =
          search.sheet.names[index]?.toList := by
        cases isName : search.sheet.names[index]? with
        | none => exact List.filterMap_cons_none isName
        | some name => exact List.filterMap_cons_some isName
      rw [List.foldl_cons, ih, compile, sameNames, List.reverse_cons,
        List.filterMap_append, isLast, List.append_assoc]

theorem visited_compileAll (search : Search) (indices : List Nat)
    (other : Nat) :
    (indices.foldl compile search).visited[other]? = some false ↔
      search.visited[other]? = some false ∧ other ∉ indices := by
  induction indices generalizing search with
  | nil => simp
  | cons index rest ih =>
      rw [List.foldl_cons, ih, compile, List.mem_cons, not_or]
      by_cases same : other = index
      · subst same
        simp [List.getElem?_set_self']
      · simp [List.getElem?_set_ne (Ne.symm same), same]

/-- The rows that were not visited yet, as far as a search sees them. -/
def unvisited (search : Search) : IndexedRows :=
  ((search.sheet.rows.map Row.outline).zipIdx.map Prod.swap).filter
    fun (index, _) => search.visited[index]? = some false

theorem mem_indexed_outlines {sheet : Worksheet} {index : Nat} {outline : Row}
    (member :
      (index, outline) ∈ (sheet.rows.map Row.outline).zipIdx.map Prod.swap) :
    ∃ row, sheet.rows[index]? = some row ∧ outline = row.outline := by
  obtain ⟨⟨other, place⟩, isEntry, same⟩ := List.mem_map.mp member
  cases same
  rw [List.mem_zipIdx_iff_getElem?, List.getElem?_map,
    Option.map_eq_some_iff] at isEntry
  obtain ⟨row, found, rfl⟩ := isEntry
  exact ⟨row, found, rfl⟩

/-- The rows that await a round are the unvisited ones that mention the name. -/
theorem filter_awaits (search : Search) (name : Text) :
    (List.range search.sheet.rows.length).filter (search.awaits name) =
      (search.unvisited.mentioning name).map Prod.fst := by
  have indices := map_fst_indexed (search.sheet.rows.map Row.outline)
  rw [List.length_map] at indices
  rw [← indices, List.filter_map, IndexedRows.mentioning, unvisited,
    List.filter_filter]
  refine congrArg _ (List.filter_congr ?_)
  rintro ⟨index, outline⟩ member
  obtain ⟨row, found, rfl⟩ := mem_indexed_outlines member
  rw [Function.comp_apply, awaits, found, Bool.and_comm]
  rfl

/-- A round compiles the unvisited rows that mention its name.  Their names are
searched for next, and the other rows are left. -/
theorem exists_next?_eq {search : Search} {pending : List Text}
    (isPending : search.pending = name :: pending) :
    let found := search.unvisited.mentioning name
    ∃ next, search.next? = some next ∧
      next.sheet = (found.map Prod.fst).foldl recompile search.sheet ∧
      next.compiled = search.compiled ++ found.map Prod.fst ∧
      next.pending = found.reverse.map (fun (_, row) => row.name) ++ pending ∧
      next.unvisited = search.unvisited.notMentioning name := by
  intro found
  have isNext : search.next? = some
      ((found.map Prod.fst).foldl compile { search with pending }) := by
    rw [next?, isPending]
    dsimp only
    rw [foldl_visit List.nodup_range]
    exact congrArg (fun indices =>
      some (indices.foldl compile { search with pending }))
        (filter_awaits search name)
  have names : (found.map Prod.fst).reverse.filterMap
      (search.sheet.names[·]?) =
        found.reverse.map fun (_, row) => row.name := by
    rw [← List.map_reverse, List.filterMap_map, ← List.filterMap_eq_map]
    refine List.filterMap_congr ?_
    rintro ⟨index, outline⟩ member
    obtain ⟨row, isRow, rfl⟩ := mem_indexed_outlines
      (List.mem_filter.mp (List.mem_filter.mp
        (List.mem_reverse.mp member)).1).1
    exact (getElem?_names isRow).trans rfl
  refine ⟨_, isNext, sheet_compileAll _ _, compiled_compileAll _ _, ?_, ?_⟩
  · rw [pending_compileAll, names]
  · rw [unvisited, sheet_compileAll, outline_recompileAll, unvisited,
      IndexedRows.notMentioning, List.filter_filter]
    refine List.filter_congr ?_
    rintro ⟨index, outline⟩ member
    obtain ⟨row, isRow, rfl⟩ := mem_indexed_outlines member
    have isFound : index ∈ found.map Prod.fst ↔
        search.visited[index]? = some false ∧
          mentions row.body name = true := by
      rw [← filter_awaits, List.mem_filter, awaits, isRow, List.mem_range]
      obtain ⟨inRange, -⟩ := List.getElem?_eq_some_iff.mp isRow
      simp [inRange]
    dsimp only
    rw [Bool.eq_iff_iff, decide_eq_true_iff, visited_compileAll, isFound]
    cases mentioned : mentions row.body name <;>
      simp [Row.outline, mentioned]

/-- The search ends after one round for each pending name and for each row that
is compiled. -/
theorem exists_ends (search : Search) {rows : IndexedRows}
    {pending : List Text} (isRows : search.unvisited = rows)
    (isPending : search.pending = pending) :
    ∃ last, Ends (pending.length + (dependents rows pending).length)
        search last ∧
      last.compiled = search.compiled ++ dependents rows pending ∧
      last.sheet = (dependents rows pending).foldl recompile search.sheet := by
  induction rows, pending using dependents.induct generalizing search with
  | case1 rows =>
      rw [dependents]
      refine ⟨search, .done ?_, (List.append_nil _).symm, rfl⟩
      rw [next?, isPending]
  | case2 rows name pending direct ih =>
      obtain ⟨next, isNext, sheetNext, compiledNext, pendingNext,
        unvisitedNext⟩ := exists_next?_eq isPending
      rw [isRows] at sheetNext compiledNext pendingNext unvisitedNext
      obtain ⟨last, ends, isCompiled, isSheet⟩ :=
        ih next unvisitedNext pendingNext
      rw [dependents]
      refine ⟨last, ?_, ?_, ?_⟩
      · have rounds := ends.round isNext
        simp only [direct, List.length_append, List.length_map,
          List.length_reverse, List.length_cons] at rounds ⊢
        convert rounds using 1
        omega
      · rw [isCompiled, compiledNext, List.append_assoc]
      · rw [isSheet, sheetNext, List.foldl_append]

theorem unvisited_start (sheet : Worksheet) (name : Text)
    (skipped : Option Nat) :
    (start sheet name skipped).unvisited =
      (sheet.rowsExcept skipped).map (Prod.map id Row.outline) := by
  rw [rowsExcept_outline, unvisited]
  refine List.filter_congr ?_
  rintro ⟨index, outline⟩ member
  obtain ⟨row, found, -⟩ := mem_indexed_outlines member
  obtain ⟨inRange, -⟩ := List.getElem?_eq_some_iff.mp found
  replace inRange : index < sheet.rows.length := inRange
  cases skipped with
  | none => simp [start, inRange]
  | some other =>
      by_cases same : other = index <;> simp [start, same, inRange]

/-- The rows can be found before the first of them is compiled. -/
theorem exists_ends_start (sheet : Worksheet) (name : Text)
    (skipped : Option Nat) :
    ∃ last, Ends (last.compiled.length + 1) (start sheet name skipped) last ∧
      last.compiled = dependents (sheet.rowsExcept skipped) [name] ∧
      last.sheet = sheet.refreshDependents name skipped := by
  have isPending : (start sheet name skipped).pending = [name] := rfl
  obtain ⟨last, ends, isCompiled, isSheet⟩ :=
    exists_ends _ (unvisited_start sheet name skipped) isPending
  rw [dependents_outline] at ends isCompiled isSheet
  replace isCompiled :
      last.compiled = dependents (sheet.rowsExcept skipped) [name] := isCompiled
  rw [← isCompiled, Nat.add_comm] at ends
  exact ⟨last, ends, isCompiled, isSheet⟩

end Rounds

end Search

section Dependents

theorem mem_of_mem_dependents {rows : IndexedRows} {pending : List Text}
    {index : Nat} (isFound : index ∈ dependents rows pending) :
    index ∈ rows.map Prod.fst := by
  obtain ⟨row, member, -⟩ := dependents_closed isFound
  exact List.mem_map_of_mem member

/-- The search finds no row twice. -/
theorem nodup_dependents {rows : IndexedRows} {pending : List Text}
    (distinct : (rows.map Prod.fst).Nodup) :
    (dependents rows pending).Nodup := by
  induction rows, pending using dependents.induct with
  | case1 => simp [dependents]
  | case2 rows name pending direct ih =>
      have isPart : (rows.notMentioning name).map Prod.fst |>.Sublist
          (rows.map Prod.fst) := List.filter_sublist.map _
      rw [dependents, List.nodup_append']
      refine ⟨distinct.sublist (List.filter_sublist.map _),
        ih (distinct.sublist isPart), ?_⟩
      intro index isDirect isLater
      obtain ⟨⟨_, row⟩, isRow, rfl⟩ := List.mem_map.mp isDirect
      obtain ⟨⟨_, other⟩, isOther, same⟩ :=
        List.mem_map.mp (mem_of_mem_dependents isLater)
      obtain ⟨member, mentioned⟩ := List.mem_filter.mp isRow
      obtain ⟨memberOther, notMentioned⟩ := List.mem_filter.mp isOther
      have sameEntry := List.inj_on_of_nodup_map distinct memberOther member same
      cases sameEntry
      exact absurd mentioned (by simpa using notMentioned)

variable {sheet : Worksheet} {name : Text} {skipped : Option Nat} {index : Nat}

theorem nodup_indices_rowsExcept (sheet : Worksheet) (skipped : Option Nat) :
    ((sheet.rowsExcept skipped).map Prod.fst).Nodup := by
  refine List.Nodup.sublist (List.filter_sublist.map _) ?_
  rw [map_fst_indexed]
  exact List.nodup_range

/-- The search finds the rows that depend on the name, and no other ones. -/
theorem mem_dependents_iff :
    index ∈ dependents (sheet.rowsExcept skipped) [name] ↔
      sheet.IsDependent name skipped index := by
  constructor
  · intro isFound
    refine dependents_induct ?_ ?_ isFound
    · intro index row member target isPending mentioned
      obtain ⟨found, notSkipped⟩ := mem_rowsExcept.mp member
      rw [List.mem_singleton] at isPending
      exact .direct notSkipped ⟨row, found, isPending ▸ mentioned⟩
    · intro index row member earlier other isOther mentioned depends
      obtain ⟨found, notSkipped⟩ := mem_rowsExcept.mp member
      exact .through notSkipped ⟨other.name,
        getElem?_names (mem_rowsExcept.mp isOther).1, row, found, mentioned⟩
          depends
  · intro depends
    induction depends with
    | direct notSkipped mentioned =>
        obtain ⟨row, found, mentioned⟩ := mentioned
        exact mem_dependents_of_mentions
          (mem_rowsExcept.mpr ⟨found, notSkipped⟩) List.mem_cons_self mentioned
    | through notSkipped refers _ ih =>
        obtain ⟨target, member, closed⟩ := dependents_closed ih
        obtain ⟨targetName, isName, row, found, mentioned⟩ := refers
        rw [getElem?_names (mem_rowsExcept.mp member).1, Option.some.injEq]
          at isName
        exact closed _ row (mem_rowsExcept.mpr ⟨found, notSkipped⟩)
          (isName ▸ mentioned)

end Dependents

section Callers

variable {sheet renamed : Worksheet} {index : Nat}

theorem length_recompileAll (sheet : Worksheet) (indices : List Nat) :
    (indices.foldl recompile sheet).rows.length = sheet.rows.length := by
  have sameLength :=
    congrArg List.length (outline_recompileAll sheet indices)
  rwa [List.length_map, List.length_map] at sameLength

theorem length_modifyRow (sheet : Worksheet) (index : Nat)
    (change : Row → Row) :
    (sheet.modifyRow index change).rows.length = sheet.rows.length :=
  List.length_modify ..

theorem length_renameRow {old new : Text}
    (renames : sheet.renameRow index old new = .ok renamed) :
    renamed.rows.length = sheet.rows.length := by
  obtain ⟨-, renames⟩ := check_bind_eq_ok_iff.mp renames
  obtain ⟨environment, -, renames⟩ := bind_eq_ok_iff.mp renames
  cases renames
  rw [propagateRename_eq, length_recompileAll, rewrite, List.length_mapIdx]
  exact length_modifyRow _ index _

theorem length_applyName {name : Text} {reading : Row.Reading}
    (renames : sheet.applyName index name reading = .ok renamed) :
    renamed.rows.length = sheet.rows.length := by
  unfold applyName at renames
  split at renames
  next =>
      cases renames
      rfl
  next =>
      split at renames
      next =>
          cases renames
          rfl
      next => exact length_renameRow renames

theorem length_applyText {name text : Text} {applied : Worksheet}
    (applies : sheet.applyText index name text = .ok applied) :
    applied.rows.length = sheet.rows.length := by
  obtain ⟨reading, renamed, -, renames, rfl⟩ := exists_of_applyText applies
  exact (length_recompileAll _ [index]).trans
    ((length_modifyRow _ index _).trans (length_applyName renames))

/-- Typing into a row keeps the number of rows. -/
theorem length_retype (sheet : Worksheet) (index : Nat) (name text : Text) :
    (sheet.retype index name text).rows.length = sheet.rows.length := by
  have typed := sheet.length_modifyRow index (Row.withText text)
  cases applies : (sheet.modifyRow index (Row.withText text)).applyText index
      name text with
  | ok applied =>
      rw [retype_of_ok applies]
      exact (length_applyText applies).trans typed
  | error error =>
      rw [retype_of_error applies]
      unfold failRow
      split
      next => exact typed
      next => exact List.length_set.trans typed

end Callers

/-- However rows mention each other, the search for the rows that depend on a
name ends, after one round more than it compiles rows.  It compiles the rows
that depend on the name, except for the skipped one, each of them once and no
other row.  Names, texts and bodies stay as they are, and rows that are not
compiled stay as they are altogether.  So it goes after an edit, for the name
that the row has then and without the row itself, and after a removal for the
name of the removed row. -/
theorem ends_refreshDependents :
    (∀ (sheet : Worksheet) (name : Text) (skipped : Option Nat),
      ∃ last, Search.Ends (last.compiled.length + 1)
          (.start sheet name skipped) last ∧
        last.sheet = sheet.refreshDependents name skipped ∧
        last.sheet = last.compiled.foldl recompile sheet ∧
        last.compiled.Nodup ∧
        (∀ index,
          index ∈ last.compiled ↔ sheet.IsDependent name skipped index) ∧
        last.sheet.rows.map Row.outline = sheet.rows.map Row.outline ∧
        ∀ index, ¬ sheet.IsDependent name skipped index →
          last.sheet.rows[index]? = sheet.rows[index]?) ∧
      (∀ (sheet : Worksheet) (index : Nat) (row : Row) (text : Text),
        sheet.rows[index]? = some row →
          let retyped := sheet.retype index row.name text
          ∃ current, retyped.rows[index]? = some current ∧
            sheet.perform (.edit index text) =
              retyped.refreshDependents current.name (some index)) ∧
      ∀ (sheet : Worksheet) (index : Nat) (removed : Row),
        sheet.rows[index]? = some removed →
          let remaining : Worksheet :=
            { environment := (sheet.environment.remove removed.name).2
              rows := sheet.rows.eraseIdx index }
          let places := List.range' index (remaining.rows.length - index)
          sheet.perform (.removeRow index) =
            (places.foldl moveDown remaining).refreshDependents removed.name
              none := by
  refine ⟨fun sheet name skipped => ?_, fun sheet index row text found => ?_,
    fun sheet index removed found => ?_⟩
  · obtain ⟨last, ends, isCompiled, isSheet⟩ :=
      Search.exists_ends_start sheet name skipped
    refine ⟨last, ends, isSheet, ?_, ?_, fun index => ?_, ?_,
      fun index independent => ?_⟩
    · rw [isSheet, isCompiled]
      rfl
    · rw [isCompiled]
      exact nodup_dependents (nodup_indices_rowsExcept sheet skipped)
    · rw [isCompiled, mem_dependents_iff]
    · rw [isSheet]
      exact outline_refreshDependents sheet name skipped
    · rw [isSheet]
      exact getElem?_recompileAll (mem_dependents_iff.not.mpr independent) sheet
  · obtain ⟨inRange, -⟩ := List.getElem?_eq_some_iff.mp found
    rw [← length_retype sheet index row.name text] at inRange
    refine ⟨_, List.getElem?_eq_getElem inRange, ?_⟩
    rw [perform, edit?_eq found, List.getElem?_eq_getElem inRange]
  · rw [perform, removeRow?, found]
    rfl

/-- Rows that refer to each other in a circle are compiled once each, when one
of them is typed again, and all three when another row is removed that one of
them mentions. -/
theorem ends_refreshDependents_circle :
    let sheet := (ofEnvironment (.empty {})).performAll
      [.pushRow, .edit 0 "a = c".toList, .pushRow, .edit 1 "b = a".toList,
        .pushRow, .edit 2 "c = b d".toList, .pushRow, .edit 3 "d = 2".toList]
    (∃ retyped last,
      Search.Ends (last.compiled.length + 1)
          (.start retyped "a".toList (some 0)) last ∧
        last.sheet = sheet.perform (.edit 0 "a = 1 + c".toList) ∧
        last.compiled.Nodup ∧
        (∀ index, index ∈ last.compiled ↔ index = 1 ∨ index = 2) ∧
        last.sheet.rows[3]? = retyped.rows[3]?) ∧
      ∃ moved last,
        Search.Ends (last.compiled.length + 1)
            (.start moved "d".toList none) last ∧
          last.sheet = sheet.perform (.removeRow 3) ∧
          last.compiled.Nodup ∧ ∀ index, index ∈ last.compiled ↔ index < 3 := by
  intro sheet
  obtain ⟨search, afterEdit, afterRemoval⟩ := ends_refreshDependents
  refine ⟨?_, ?_⟩
  · have found : ∃ row, sheet.rows[0]? = some row ∧ row.name = "a".toList := by
      decide +kernel
    obtain ⟨row, isFirst, isName⟩ := found
    obtain ⟨current, isCurrent, edits⟩ :=
      afterEdit sheet 0 row "a = 1 + c".toList isFirst
    rw [isName] at isCurrent edits
    have currentName : current.name = "a".toList := by
      have name : (sheet.retype 0 "a".toList "a = 1 + c".toList).rows[0]?.map
          Row.name = some "a".toList := by
        decide +kernel
      rwa [isCurrent, Option.map_some, Option.some.injEq] at name
    rw [currentName] at edits
    have isFound : dependents ((sheet.retype 0 "a".toList
        "a = 1 + c".toList).rowsExcept (some 0)) ["a".toList] = [1, 2] := by
      decide +kernel
    obtain ⟨last, ends, isLast, -, distinct, isCompiled, -, isLeft⟩ :=
      search (sheet.retype 0 "a".toList "a = 1 + c".toList) "a".toList (some 0)
    refine ⟨_, last, ends, isLast.trans edits.symm, distinct, fun index => ?_,
      isLeft 3 ?_⟩
    · rw [isCompiled, ← mem_dependents_iff, isFound]
      simp
    · rw [← mem_dependents_iff, isFound]
      decide
  · have found : ∃ row, sheet.rows[3]? = some row ∧ row.name = "d".toList := by
      decide +kernel
    obtain ⟨removed, isLast, isName⟩ := found
    have removes := afterRemoval sheet 3 removed isLast
    have noneFollows : (sheet.rows.eraseIdx 3).length - 3 = 0 := by
      decide +kernel
    dsimp only at removes
    rw [isName, noneFollows] at removes
    have isFound : dependents (rowsExcept
        ⟨(sheet.environment.remove "d".toList).2, sheet.rows.eraseIdx 3⟩ none)
          ["d".toList] = [2, 0, 1] := by
      decide +kernel
    obtain ⟨last, ends, isSheet, -, distinct, isCompiled, -⟩ :=
      search ⟨(sheet.environment.remove "d".toList).2, sheet.rows.eraseIdx 3⟩
        "d".toList none
    refine ⟨_, last, ends, isSheet.trans removes.symm, distinct,
      fun index => ?_⟩
    rw [isCompiled, ← mem_dependents_iff, isFound]
    simp only [List.mem_cons, List.not_mem_nil, or_false]
    omega

end Worksheet
end GraphingCalculator
