import GraphingCalculator.Environment.Evaluation
import GraphingCalculator.Plot.Window

/-!
# Sampling curves

A formula is sampled across a window.  Samples where it is undefined or leaves
the window break the curve into runs of visible points.
-/

namespace GraphingCalculator

/-- A point of the plane. -/
structure Point where
  x : Float
  y : Float

/-- A run that can still grow at its start, and the runs after it. -/
structure OpenRun where
  points : List Point
  later : List (List Point)

namespace OpenRun

/-- All runs, once the first one has ended.  An empty run is left out. -/
def close (run : OpenRun) : List (List Point) :=
  if run.points.isEmpty then run.later else run.points :: run.later

/-- Put one more sample before the others.  A missing point ends the run. -/
def extend : Option Point → OpenRun → OpenRun
  | some point, run => ⟨point :: run.points, run.later⟩
  | none, run => ⟨[], run.close⟩

end OpenRun

/-- The runs of consecutive points in a row of samples. -/
def runs (samples : List (Option Point)) : List (List Point) :=
  (samples.foldr OpenRun.extend ⟨[], []⟩).close

namespace Environment

/-- The point of a formula at an abscissa, if it is visible in a window. -/
def visiblePoint? (environment : Environment) (window : Window)
    (formula : Formula) (x : Float) : Option Point :=
  match environment.evaluate formula.expression x with
  | .ok y => if window.contains y then some ⟨x, y⟩ else none
  | .error _ => none

/-- The visible runs of a formula across a window. -/
def sample (environment : Environment) (window : Window)
    (formula : Formula) : List (List Point) :=
  runs (window.abscissas.map (environment.visiblePoint? window formula))

end Environment
end GraphingCalculator
