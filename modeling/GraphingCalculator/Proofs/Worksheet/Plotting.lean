import GraphingCalculator.Proofs.Plot.MaximalBlocks
import GraphingCalculator.Proofs.Worksheet.Renaming

/-!
# What a plot shows

Every formula is sampled at the abscissas of a window.  A sample is visible if
the formula has a value there that lies in the window, and the runs of the curve
are the maximal blocks of visible samples.  A worksheet plots the rows that are
enabled and have a formula, and the points of a row are values of that row.
-/

namespace GraphingCalculator

namespace Environment

section Sampling

variable (environment : Environment) (window : Window) (formula : Formula)

/-- The sample at an index is visible: the formula has a value at its abscissa,
and the value lies in the window. -/
def IsVisibleAt (index : Nat) : Prop :=
  index < window.resolution ∧ ∃ y,
    environment.evaluate formula.expression (window.abscissa index) = .ok y ∧
      window.yMin ≤ y ∧ y ≤ window.yMax

/-- A run draws the samples at some indices: its points stand at the abscissas
of these, and their ordinates are the values of the formula. -/
def Draws (run : List Point) (indices : List Nat) : Prop :=
  run.map Point.x = indices.map window.abscissa ∧
    ∀ point ∈ run,
      environment.evaluate formula.expression point.x = .ok point.y

/-- The point of a sample, if it is visible.  There are no samples behind the
window. -/
def sampleAt? (index : Nat) : Option Point :=
  if index < window.resolution then
    environment.visiblePoint? window formula (window.abscissa index)
  else none

end Sampling

variable {environment : Environment} {window : Window} {formula : Formula}
variable {x : Float} {point : Point} {index : Nat}

theorem visiblePoint?_eq_some_iff :
    environment.visiblePoint? window formula x = some point ↔
      point.x = x ∧ environment.evaluate formula.expression x = .ok point.y ∧
        window.yMin ≤ point.y ∧ point.y ≤ window.yMax := by
  obtain ⟨abscissa, ordinate⟩ := point
  unfold visiblePoint?
  cases environment.evaluate formula.expression x with
  | error error => simp
  | ok y =>
      simp only [Window.contains, Bool.and_eq_true, decide_eq_true_eq,
        Option.ite_none_right_eq_some, Option.some.injEq, Point.mk.injEq,
        Except.ok.injEq]
      constructor
      · rintro ⟨inWindow, rfl, rfl⟩
        exact ⟨rfl, rfl, inWindow⟩
      · rintro ⟨rfl, rfl, inWindow⟩
        exact ⟨inWindow, rfl, rfl⟩

theorem sampleAt?_eq_some_iff :
    environment.sampleAt? window formula index = some point ↔
      index < window.resolution ∧ point.x = window.abscissa index ∧
        environment.evaluate formula.expression (window.abscissa index) =
          .ok point.y ∧ window.yMin ≤ point.y ∧ point.y ≤ window.yMax := by
  rw [sampleAt?, Option.ite_none_right_eq_some, visiblePoint?_eq_some_iff]

theorem isVisibleAt_iff :
    environment.IsVisibleAt window formula index ↔
      environment.sampleAt? window formula index ≠ none := by
  rw [Option.ne_none_iff_exists']
  simp only [sampleAt?_eq_some_iff]
  constructor
  · rintro ⟨inRange, y, isValue, inWindow⟩
    exact ⟨⟨window.abscissa index, y⟩, inRange, rfl, isValue, inWindow⟩
  · rintro ⟨point, inRange, -, isValue, inWindow⟩
    exact ⟨inRange, point.y, isValue, inWindow⟩

theorem sample_eq_runs (environment : Environment) (window : Window)
    (formula : Formula) :
    environment.sample window formula =
      runs ((List.range window.resolution).map
        (environment.sampleAt? window formula)) := by
  have sameSamples : window.abscissas.map
      (environment.visiblePoint? window formula) =
        (List.range window.resolution).map
          (environment.sampleAt? window formula) := by
    rw [Window.abscissas, List.map_map]
    refine List.map_congr_left fun index inRange => ?_
    rw [sampleAt?, if_pos (List.mem_range.mp inRange), Function.comp_apply]
  rw [sample, sameSamples]

theorem draws_of_map_eq {run : List Point} {indices : List Nat}
    (same : indices.map (environment.sampleAt? window formula) =
      run.map some) :
    environment.Draws window formula run indices := by
  induction run generalizing indices with
  | nil => simpa [Draws] using same
  | cons point rest ih =>
      obtain ⟨index, later, rfl, isPoint, sameRest⟩ :=
        List.map_eq_cons_iff.mp same
      obtain ⟨-, isAbscissa, isValue, -⟩ := sampleAt?_eq_some_iff.mp isPoint
      obtain ⟨areAbscissas, areValues⟩ := ih sameRest
      refine ⟨?_, List.forall_mem_cons.mpr ⟨?_, areValues⟩⟩
      · rw [List.map_cons, List.map_cons, isAbscissa, areAbscissas]
      · rw [isAbscissa, isValue]

/-- The runs of a formula draw its maximal blocks of visible samples, all of
them and in order. -/
theorem exists_blocks_sample (environment : Environment) (window : Window)
    (formula : Formula) :
    ∃ blocks : List Block,
      (∀ block, block ∈ blocks ↔
        block.IsMaximal (environment.IsVisibleAt window formula)) ∧
      blocks.Pairwise (fun first second => first.finish < second.start) ∧
      List.Forall₂
        (fun run block => environment.Draws window formula run block.indices)
        (environment.sample window formula) blocks := by
  have noMore (index : Nat) (behind : window.resolution ≤ index) :
      environment.sampleAt? window formula index = none :=
    if_neg (Nat.not_lt.mpr behind)
  obtain ⟨blocks, shown, complete, ordered⟩ := exists_showsAll_runs noMore
  have sameVisible : environment.IsVisibleAt window formula =
      fun index => environment.sampleAt? window formula index ≠ none :=
    funext fun index => propext isVisibleAt_iff
  rw [sample_eq_runs, sameVisible]
  refine ⟨blocks, fun block => ?_, ordered,
    shown.imp fun run block => draws_of_map_eq⟩
  rw [complete, and_iff_left_iff_imp]
  -- no maximal block reaches behind the window, where nothing is visible
  intro isMaximal
  by_contra behind
  have nonempty := isMaximal.nonempty
  exact isMaximal.visible (block.finish - 1) (by omega) (by omega)
    (noMore _ (by omega))

/-- The indices of the maximal blocks are those of the visible samples. -/
theorem mem_flatMap_indices_iff {blocks : List Block}
    (complete : ∀ block, block ∈ blocks ↔
      block.IsMaximal (environment.IsVisibleAt window formula)) :
    index ∈ blocks.flatMap Block.indices ↔
      environment.IsVisibleAt window formula index := by
  rw [List.mem_flatMap]
  constructor
  · rintro ⟨block, isBlock, inBlock⟩
    obtain ⟨notBefore, before⟩ := Block.mem_indices_iff.mp inBlock
    exact ((complete block).mp isBlock).visible index notBefore before
  · intro isVisible
    have bounded (other : Nat) (behind : window.resolution ≤ other) :
        ¬ environment.IsVisibleAt window formula other :=
      fun isVisible => Nat.not_lt.mpr behind isVisible.1
    obtain ⟨block, isMaximal, inBlock⟩ :=
      Block.exists_isMaximal bounded isVisible
    exact ⟨block, (complete block).mpr isMaximal, inBlock⟩

theorem Draws.ne_nil {run : List Point} {block : Block}
    (draws : environment.Draws window formula run block.indices)
    (nonempty : block.start < block.finish) : run ≠ [] := by
  rintro rfl
  have noIndices : block.indices = [] := List.map_eq_nil_iff.mp draws.1.symm
  have inBlock : block.start ∈ block.indices :=
    Block.mem_indices_iff.mpr ⟨le_rfl, nonempty⟩
  rw [noIndices] at inBlock
  contradiction

end Environment

theorem exists_mem_of_forall₂ {First Second : Type}
    {related : First → Second → Prop} {firsts : List First}
    {seconds : List Second} (areRelated : List.Forall₂ related firsts seconds)
    {first : First} (member : first ∈ firsts) :
    ∃ second ∈ seconds, related first second := by
  induction areRelated with
  | nil => contradiction
  | cons isRelated rest ih =>
      rcases List.mem_cons.mp member with rfl | member
      · exact ⟨_, List.mem_cons_self, isRelated⟩
      · obtain ⟨second, isSecond, isRelated⟩ := ih member
        exact ⟨second, List.mem_cons_of_mem _ isSecond, isRelated⟩

namespace Row

variable {row : Row} {formula : Formula}

theorem error?_eq_none_of_formula? (isFormula : row.formula? = some formula) :
    row.error? = none := by
  rw [error?, formula?_eq_some_iff.mp isFormula]

end Row

namespace Worksheet

variable {sheet : Worksheet} {window : Window} {index : Nat}
variable {runs : List (List Point)}

/-- A plot shows the samples of the rows that are enabled and have a
formula. -/
theorem mem_plot_iff :
    (index, runs) ∈ sheet.plot window ↔
      ∃ row formula, sheet.rows[index]? = some row ∧ row.isEnabled = true ∧
        row.formula? = some formula ∧
          sheet.environment.sample window formula = runs := by
  rw [plot, List.mem_filterMap]
  constructor
  · rintro ⟨⟨row, place⟩, isRow, isShown⟩
    rw [Option.ite_none_right_eq_some, Option.map_eq_some_iff] at isShown
    obtain ⟨isEnabled, formula, isFormula, isEntry⟩ := isShown
    obtain ⟨rfl, isSample⟩ := Prod.mk.inj isEntry
    exact ⟨row, formula, List.mem_zipIdx_iff_getElem?.mp isRow, isEnabled,
      isFormula, isSample⟩
  · rintro ⟨row, formula, isRow, isEnabled, isFormula, rfl⟩
    refine ⟨(row, index), List.mem_zipIdx_iff_getElem?.mpr isRow, ?_⟩
    simp [isEnabled, isFormula]

/-- Rows are plotted from top to bottom. -/
theorem pairwise_plot (sheet : Worksheet) (window : Window) :
    ((sheet.plot window).map Prod.fst).Pairwise (· < ·) := by
  have inOrder : sheet.rows.zipIdx.Pairwise
      fun upper lower => upper.2 < lower.2 := by
    rw [← List.pairwise_map, List.zipIdx_map_snd]
    exact List.pairwise_lt_range' ..
  rw [List.pairwise_map, plot]
  refine inOrder.filterMap _ ?_
  rintro ⟨upper, above⟩ ⟨lower, below⟩ ordered first isFirst second isSecond
  rw [Option.ite_none_right_eq_some, Option.map_eq_some_iff]
    at isFirst isSecond
  obtain ⟨-, -, -, rfl⟩ := isFirst
  obtain ⟨-, -, -, rfl⟩ := isSecond
  exact ordered

/-- The points of a row are values of that row. -/
theorem evaluate?_of_mem_plot {run : List Point} {point : Point}
    (isPlotted : (index, runs) ∈ sheet.plot window) (isRun : run ∈ runs)
    (isPoint : point ∈ run) :
    sheet.evaluate? index point.x = some (.ok point.y) := by
  obtain ⟨row, formula, isRow, -, isFormula, rfl⟩ := mem_plot_iff.mp isPlotted
  obtain ⟨blocks, -, -, drawn⟩ :=
    sheet.environment.exists_blocks_sample window formula
  obtain ⟨block, -, draws⟩ := exists_mem_of_forall₂ drawn isRun
  have isFormulaAt : sheet.formulaAt? index = some formula := by
    rw [formulaAt?, isRow, Option.bind_some, isFormula]
  exact evaluate?_eq_ok_iff.mpr
    ⟨formula, isFormulaAt, draws.2 point isPoint⟩

/-- The runs of a formula draw the maximal blocks of visible samples, all of
them and in order, and every visible sample once.  A worksheet plots the rows
that are enabled and have a formula and no error, from top to bottom, and the
points of a row are values of that row. -/
theorem plot_draws_maximal_blocks :
    (∀ (environment : Environment) (window : Window) (formula : Formula),
      ∃ blocks : List Block,
        (∀ block, block ∈ blocks ↔
          block.IsMaximal (environment.IsVisibleAt window formula)) ∧
        blocks.Pairwise (fun first second => first.finish < second.start) ∧
        List.Forall₂
          (fun run block => environment.Draws window formula run block.indices)
          (environment.sample window formula) blocks ∧
        (∀ run ∈ environment.sample window formula, run ≠ []) ∧
        (blocks.flatMap Block.indices).Pairwise (· < ·) ∧
        ∀ index, index ∈ blocks.flatMap Block.indices ↔
          environment.IsVisibleAt window formula index) ∧
    ∀ (sheet : Worksheet) (window : Window),
      ((sheet.plot window).map Prod.fst).Pairwise (· < ·) ∧
      (∀ index runs, (index, runs) ∈ sheet.plot window ↔
        ∃ row formula, sheet.rows[index]? = some row ∧ row.isEnabled = true ∧
          row.error? = none ∧ row.formula? = some formula ∧
            runs = sheet.environment.sample window formula) ∧
      ∀ entry ∈ sheet.plot window, ∀ run ∈ entry.2, ∀ point ∈ run,
        sheet.evaluate? entry.1 point.x = some (.ok point.y) := by
  constructor
  · intro environment window formula
    obtain ⟨blocks, complete, ordered, drawn⟩ :=
      environment.exists_blocks_sample window formula
    refine ⟨blocks, complete, ordered, drawn, fun run isRun => ?_,
      Block.pairwise_flatMap_indices ordered,
      fun index => Environment.mem_flatMap_indices_iff complete⟩
    obtain ⟨block, isBlock, draws⟩ := exists_mem_of_forall₂ drawn isRun
    exact draws.ne_nil ((complete block).mp isBlock).nonempty
  · intro sheet window
    refine ⟨sheet.pairwise_plot window, fun index runs => ?_,
      fun ⟨index, runs⟩ isPlotted run isRun point isPoint =>
        evaluate?_of_mem_plot isPlotted isRun isPoint⟩
    rw [mem_plot_iff]
    constructor
    · rintro ⟨row, formula, isRow, isEnabled, isFormula, isSample⟩
      exact ⟨row, formula, isRow, isEnabled,
        Row.error?_eq_none_of_formula? isFormula, isFormula, isSample.symm⟩
    · rintro ⟨row, formula, isRow, isEnabled, -, isFormula, isSample⟩
      exact ⟨row, formula, isRow, isEnabled, isFormula, isSample.symm⟩

/-- The reciprocal leaves the window around zero.  A row that is not enabled and
one that failed are not plotted. -/
theorem plot_draws_maximal_blocks_reciprocal :
    let sheet := (ofEnvironment (.empty {})).performAll
      [.pushRow, .edit 0 "x".toList, .setEnabled 0 false,
        .pushRow, .edit 1 "1/x".toList, .pushRow, .edit 2 "1/".toList]
    let window : Window := ⟨-1, 1, -5, 5, 5⟩
    ∃ left right, sheet.plot window = [(1, [left, right])] ∧
      left.length = 4 ∧ right.length = 4 ∧
      ∀ point ∈ left ++ right,
        sheet.evaluate? 1 point.x = some (.ok point.y) := by
  intro sheet window
  have sizes : (sheet.plot window).map (Prod.map id (List.map List.length)) =
      [(1, [4, 4])] := by
    decide +kernel
  obtain ⟨⟨index, runs⟩, isPlot, sameSizes⟩ :=
    List.map_eq_singleton_iff.mp sizes
  obtain ⟨rfl, lengths⟩ := Prod.mk.inj sameSizes
  obtain ⟨left, rest, rfl, leftLength, lengths⟩ :=
    List.map_eq_cons_iff.mp lengths
  obtain ⟨right, rfl, rightLength⟩ := List.map_eq_singleton_iff.mp lengths
  obtain ⟨-, -, areValues⟩ := plot_draws_maximal_blocks.2 sheet window
  rw [isPlot] at areValues
  refine ⟨left, right, isPlot, leftLength, rightLength, fun point isPoint => ?_⟩
  rcases List.mem_append.mp isPoint with isLeft | isRight
  · exact areValues _ (List.mem_singleton_self _) left (by simp) point isLeft
  · exact areValues _ (List.mem_singleton_self _) right (by simp) point isRight

end Worksheet
end GraphingCalculator
