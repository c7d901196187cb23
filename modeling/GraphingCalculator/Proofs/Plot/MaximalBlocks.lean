import GraphingCalculator.Plot.Sampling
import Mathlib.Data.List.Forall2
import Mathlib.Data.Nat.Find

/-!
# The runs of a curve

A curve is drawn by a loop over its samples: a visible sample joins the current
run, and any other one ends it.  After every sample the runs that have ended are
the maximal blocks of visible samples that end before it, in order, and the
current run reaches back to the last sample that is not visible.  So the loop
finds all maximal blocks and nothing else, and no visible sample is lost.
-/

namespace GraphingCalculator

/-- Consecutive indices, from the first one to the one behind the last. -/
structure Block where
  start : Nat
  finish : Nat

namespace Block

/-- The indices of a block, in order. -/
def indices (block : Block) : List Nat :=
  List.range' block.start (block.finish - block.start)

/-- A block of visible indices that is not empty and cannot be made longer at
either end. -/
structure IsMaximal (isVisible : Nat → Prop) (block : Block) : Prop where
  nonempty : block.start < block.finish
  visible : ∀ index, block.start ≤ index → index < block.finish →
    isVisible index
  noneBefore : ∀ index, index + 1 = block.start → ¬ isVisible index
  noneBehind : ¬ isVisible block.finish

variable {isVisible : Nat → Prop} {block first second : Block} {index : Nat}

theorem mem_indices_iff :
    index ∈ block.indices ↔ block.start ≤ index ∧ index < block.finish := by
  rw [indices, List.mem_range'_1]
  omega

theorem indices_succ {start finish : Nat} (ordered : start ≤ finish) :
    (⟨start, finish + 1⟩ : Block).indices =
      (⟨start, finish⟩ : Block).indices ++ [finish] := by
  have size : finish + 1 - start = (finish - start) + 1 := by omega
  have atEnd : start + (finish - start) = finish := by omega
  rw [indices, indices, size, List.range'_1_concat, atEnd]

/-- Blocks that are apart and in order have their indices in order, and so none
of them twice. -/
theorem pairwise_flatMap_indices {blocks : List Block}
    (ordered : blocks.Pairwise
      fun first second => first.finish < second.start) :
    (blocks.flatMap indices).Pairwise (· < ·) := by
  rw [List.pairwise_flatMap]
  refine ⟨fun block _ => List.pairwise_lt_range' .., ordered.imp ?_⟩
  intro first second apart index inFirst later inSecond
  rw [mem_indices_iff] at inFirst inSecond
  omega

/-- Where a maximal block ends, no other one does. -/
theorem IsMaximal.eq_of_finish_eq (isFirst : first.IsMaximal isVisible)
    (isSecond : second.IsMaximal isVisible)
    (sameFinish : first.finish = second.finish) : first = second := by
  have notLater {one other : Block} (isOne : one.IsMaximal isVisible)
      (isOther : other.IsMaximal isVisible)
      (same : one.finish = other.finish) : one.start ≤ other.start := by
    by_contra later
    have nonempty := isOne.nonempty
    have isBefore : one.start - 1 + 1 = one.start := by omega
    exact isOne.noneBefore _ isBefore
      (isOther.visible _ (by omega) (by omega))
  have sameStart : first.start = second.start :=
    Nat.le_antisymm (notLater isFirst isSecond sameFinish)
      (notLater isSecond isFirst sameFinish.symm)
  cases first
  cases second
  simp_all

/-- Below a visible index the visible ones begin somewhere. -/
theorem exists_start (isVisibleHere : isVisible index) :
    ∃ start ≤ index,
      (∀ other, start ≤ other → other ≤ index → isVisible other) ∧
        ∀ other, other + 1 = start → ¬ isVisible other := by
  induction index with
  | zero =>
      refine ⟨0, le_rfl, fun other _ within => ?_, fun other => by omega⟩
      rwa [Nat.le_zero.mp within]
  | succ index ih =>
      by_cases isVisibleBefore : isVisible index
      · obtain ⟨start, within, visible, noneBefore⟩ := ih isVisibleBefore
        refine ⟨start, by omega, fun other notBefore notBehind => ?_,
          noneBefore⟩
        by_cases isHere : other = index + 1
        · rwa [isHere]
        · exact visible other notBefore (by omega)
      · refine ⟨index + 1, le_rfl, fun other notBefore notBehind => ?_,
          fun other isBefore => ?_⟩
        · rwa [Nat.le_antisymm notBehind notBefore]
        · rwa [Nat.succ.inj isBefore]

/-- Above it they end, if they are bounded. -/
theorem exists_finish {count : Nat}
    (bounded : ∀ index, count ≤ index → ¬ isVisible index)
    (isVisibleHere : isVisible index) :
    ∃ finish, index < finish ∧
      (∀ other, index ≤ other → other < finish → isVisible other) ∧
        ¬ isVisible finish := by
  classical
  have ends : ∃ finish, index < finish ∧ ¬ isVisible finish :=
    ⟨max count (index + 1), by omega, bounded _ (le_max_left ..)⟩
  refine ⟨Nat.find ends, (Nat.find_spec ends).1,
    fun other notBefore before => ?_, (Nat.find_spec ends).2⟩
  by_cases isHere : other = index
  · rwa [isHere]
  · by_contra notVisible
    exact Nat.find_min ends before ⟨by omega, notVisible⟩

/-- Every visible index lies in a maximal block, if the visible indices are
bounded. -/
theorem exists_isMaximal {count : Nat}
    (bounded : ∀ index, count ≤ index → ¬ isVisible index)
    (isVisibleHere : isVisible index) :
    ∃ block : Block, block.IsMaximal isVisible ∧ index ∈ block.indices := by
  obtain ⟨start, notBehind, visibleBefore, noneBefore⟩ :=
    exists_start isVisibleHere
  obtain ⟨finish, before, visibleBehind, noneBehind⟩ :=
    exists_finish bounded isVisibleHere
  refine ⟨⟨start, finish⟩, ?_, mem_indices_iff.mpr ⟨notBehind, before⟩⟩
  refine ⟨Nat.lt_of_le_of_lt notBehind before, fun other notBefore within => ?_,
    noneBefore, noneBehind⟩
  by_cases isBefore : other ≤ index
  · exact visibleBefore other notBefore isBefore
  · exact visibleBehind other (by omega) within

end Block

section Drawing

/-- The points of a run are the samples of a block, in order. -/
def Shows (point? : Nat → Option Point) (run : List Point) (block : Block) :
    Prop :=
  block.indices.map point? = run.map some

/-- Runs show the maximal blocks of visible samples that end before a sample,
all of them and in order. -/
structure ShowsAll (point? : Nat → Option Point) (count : Nat)
    (runs : List (List Point)) (blocks : List Block) : Prop where
  shown : List.Forall₂ (Shows point?) runs blocks
  complete : ∀ block, block ∈ blocks ↔
    block.IsMaximal (fun index => point? index ≠ none) ∧ block.finish < count
  ordered : blocks.Pairwise fun first second => first.finish < second.start

variable {point? : Nat → Option Point} {count : Nat} {run : List Point}
variable {block : Block} {runs : List (List Point)} {blocks : List Block}

theorem Shows.isVisible (shows : Shows point? run block) {index : Nat}
    (member : index ∈ block.indices) : point? index ≠ none := by
  intro isNone
  have inRun : none ∈ run.map some := by
    rw [← shows, ← isNone]
    exact List.mem_map_of_mem member
  simp at inRun

theorem Shows.length_eq (shows : Shows point? run block) :
    run.length = block.finish - block.start := by
  have lengths := congrArg List.length shows
  rw [Block.indices, List.length_map, List.length_map,
    List.length_range'] at lengths
  exact lengths.symm

theorem Shows.snoc {start : Nat} (ordered : start ≤ count)
    (shows : Shows point? run ⟨start, count⟩) {point : Point}
    (isPoint : point? count = some point) :
    Shows point? (run ++ [point]) ⟨start, count + 1⟩ := by
  rw [Shows, Block.indices_succ ordered, List.map_append, List.map_append,
    shows, List.map_singleton, List.map_singleton, isPoint]

/-- Nothing has to be added where no maximal block ends. -/
theorem ShowsAll.of_noneEnds (showsAll : ShowsAll point? count runs blocks)
    (noneEnds : ∀ block : Block,
      block.IsMaximal (fun index => point? index ≠ none) →
        block.finish ≠ count) :
    ShowsAll point? (count + 1) runs blocks := by
  refine ⟨showsAll.shown, fun block => ?_, showsAll.ordered⟩
  rw [showsAll.complete]
  constructor
  · rintro ⟨isMaximal, before⟩
    exact ⟨isMaximal, by omega⟩
  · rintro ⟨isMaximal, before⟩
    have notHere := noneEnds block isMaximal
    exact ⟨isMaximal, by omega⟩

/-- Where a maximal block ends, a run that shows it is added. -/
theorem ShowsAll.snoc (showsAll : ShowsAll point? count runs blocks)
    {start : Nat} (shows : Shows point? run ⟨start, count⟩)
    (isMaximal : (⟨start, count⟩ : Block).IsMaximal
      fun index => point? index ≠ none) :
    ShowsAll point? (count + 1) (runs ++ [run]) (blocks ++ [⟨start, count⟩])
    where
  shown := List.rel_append showsAll.shown (.cons shows .nil)
  complete block := by
    rw [List.mem_append, showsAll.complete, List.mem_singleton]
    constructor
    · rintro (⟨isEarlier, before⟩ | rfl)
      · exact ⟨isEarlier, by omega⟩
      · exact ⟨isMaximal, Nat.lt_succ_self count⟩
    · rintro ⟨isOther, before⟩
      by_cases isLast : block.finish = count
      · exact .inr (isOther.eq_of_finish_eq isMaximal isLast)
      · exact .inl ⟨isOther, by omega⟩
  ordered := by
    rw [List.pairwise_append]
    refine ⟨showsAll.ordered, List.pairwise_singleton .., ?_⟩
    intro earlier isEarlier last isLast
    obtain rfl := List.mem_singleton.mp isLast
    obtain ⟨isEarlierMaximal, before⟩ :=
      (showsAll.complete earlier).mp isEarlier
    -- otherwise the sample behind the earlier block would be in the last one
    by_contra notApart
    exact isEarlierMaximal.noneBehind
      (isMaximal.visible _ (Nat.not_lt.mp notApart) before)

end Drawing

/-- A curve on its way: the runs that have ended, in order, and the one that can
still grow. -/
structure Tracing where
  ended : List (List Point)
  current : List Point

namespace Tracing

/-- The runs that have ended, with the current one if it has points. -/
def flush (tracing : Tracing) : List (List Point) :=
  if tracing.current.isEmpty then tracing.ended
  else tracing.ended ++ [tracing.current]

/-- A visible sample joins the current run, and any other one ends it. -/
def read (tracing : Tracing) : Option Point → Tracing
  | some point => { tracing with current := tracing.current ++ [point] }
  | none => ⟨tracing.flush, []⟩

/-- Reading the rest of the samples forwards adds the runs that are found in it
backwards, the first of which goes on with the current run. -/
theorem flush_foldl_read (samples : List (Option Point)) (tracing : Tracing) :
    let rest := samples.foldr OpenRun.extend ⟨[], []⟩
    (samples.foldl read tracing).flush =
      tracing.ended ++
        OpenRun.close ⟨tracing.current ++ rest.points, rest.later⟩ := by
  induction samples generalizing tracing with
  | nil => cases current : tracing.current <;> simp [flush, OpenRun.close, current]
  | cons sample rest ih =>
      rw [List.foldl_cons, ih]
      cases sample with
      | some point => simp [read, OpenRun.extend]
      | none =>
          cases current : tracing.current <;>
            simp [read, flush, OpenRun.extend, OpenRun.close, current]

theorem flush_eq_runs (samples : List (Option Point)) :
    (samples.foldl read ⟨[], []⟩).flush = runs samples := by
  rw [flush_foldl_read]
  rfl

/-- What the loop holds after a number of samples.  The current run shows the
samples behind the last one that is not visible. -/
structure Holds (point? : Nat → Option Point) (count : Nat) (tracing : Tracing)
    (blocks : List Block) : Prop where
  ended : ShowsAll point? count tracing.ended blocks
  current : ∃ start ≤ count, Shows point? tracing.current ⟨start, count⟩ ∧
    ∀ index, index + 1 = start → point? index = none

variable {point? : Nat → Option Point} {count : Nat} {tracing : Tracing}
variable {blocks : List Block}

theorem holds_start (point? : Nat → Option Point) :
    Holds point? 0 ⟨[], []⟩ [] :=
  ⟨⟨.nil, by simp, .nil⟩, 0, le_rfl, rfl, by simp⟩

/-- At a sample that is not visible the current run has come to its end, and it
shows the only maximal block that ends there, if it has points. -/
theorem Holds.flush (holds : Holds point? count tracing blocks)
    (isNone : point? count = none) :
    ∃ later, ShowsAll point? (count + 1) tracing.flush later := by
  obtain ⟨ended, start, within, shows, noneBefore⟩ := holds
  have points : tracing.current.length = count - start := shows.length_eq
  by_cases isEmpty : tracing.current = []
  · have isFlush : tracing.flush = tracing.ended := by
      simp [Tracing.flush, isEmpty]
    rw [isEmpty, List.length_nil] at points
    rw [isFlush]
    -- the sample before this one is not visible, so no block ends here
    refine ⟨blocks, ended.of_noneEnds fun block isMaximal isLast => ?_⟩
    have nonempty := isMaximal.nonempty
    exact isMaximal.visible (count - 1) (by omega) (by omega)
      (noneBefore _ (by omega))
  · have isFlush : tracing.flush = tracing.ended ++ [tracing.current] := by
      simp [Tracing.flush, isEmpty]
    have positive := List.length_pos_iff.mpr isEmpty
    rw [isFlush]
    refine ⟨_, ended.snoc shows ⟨?_, fun index notBefore before => ?_,
      fun index isBefore => not_not.mpr (noneBefore index isBefore),
      not_not.mpr isNone⟩⟩
    · change start < count
      omega
    · exact shows.isVisible (Block.mem_indices_iff.mpr ⟨notBefore, before⟩)

/-- Reading one more sample keeps what the loop holds. -/
theorem Holds.read (holds : Holds point? count tracing blocks) :
    ∃ later, Holds point? (count + 1) (tracing.read (point? count)) later := by
  cases isSample : point? count with
  | some point =>
      obtain ⟨ended, start, within, shows, noneBefore⟩ := holds
      refine ⟨blocks, ended.of_noneEnds fun block isMaximal isLast => ?_, start,
        by omega, shows.snoc within isSample, noneBefore⟩
      have notVisible := isMaximal.noneBehind
      rw [isLast, isSample] at notVisible
      exact notVisible (by simp)
  | none =>
      obtain ⟨later, showsAll⟩ := holds.flush isSample
      refine ⟨later, showsAll, count + 1, le_rfl, ?_, fun index isBefore => ?_⟩
      · simp [Shows, Block.indices, Tracing.read]
      · rwa [Nat.succ.inj isBefore]

/-- The loop holds the same after all samples of a run. -/
theorem exists_holds (point? : Nat → Option Point) (count : Nat) :
    ∃ blocks, Holds point? count
      (((List.range count).map point?).foldl Tracing.read ⟨[], []⟩) blocks := by
  induction count with
  | zero => exact ⟨[], holds_start point?⟩
  | succ count ih =>
      obtain ⟨blocks, holds⟩ := ih
      rw [List.range_succ, List.map_append, List.foldl_append]
      exact holds.read

end Tracing

/-- The runs of a number of samples show all maximal blocks of visible ones. -/
theorem exists_showsAll_runs {point? : Nat → Option Point} {count : Nat}
    (noMore : ∀ index, count ≤ index → point? index = none) :
    ∃ blocks, ShowsAll point? (count + 1)
      (runs ((List.range count).map point?)) blocks := by
  obtain ⟨blocks, holds⟩ := Tracing.exists_holds point? count
  rw [← Tracing.flush_eq_runs]
  exact holds.flush (noMore count le_rfl)

end GraphingCalculator
