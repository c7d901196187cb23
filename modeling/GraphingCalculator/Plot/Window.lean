/-!
# Plot windows

A window is a rectangle of the plane that is drawn in a number of columns.
Curves are sampled twice in every column.
-/

namespace GraphingCalculator

/-- A rectangle of the plane, and the number of columns it is drawn in. -/
structure Window where
  xMin : Float := -10
  xMax : Float := 10
  yMin : Float := -10
  yMax : Float := 10
  columns : Nat := 80

namespace Window

/-- Number of samples across a window. -/
def resolution (window : Window) : Nat :=
  2 * window.columns

/-- The distance of neighbouring samples. -/
def spacing (window : Window) : Float :=
  if 1 < window.resolution then
    (window.xMax - window.xMin) / Float.ofNat (window.resolution - 1)
  else 0

/-- The abscissa of a sample. -/
def abscissa (window : Window) (index : Nat) : Float :=
  window.xMin + window.spacing * Float.ofNat index

/-- The abscissas of the samples, evenly spaced over the window. -/
def abscissas (window : Window) : List Float :=
  (List.range window.resolution).map window.abscissa

/-- Check whether an ordinate lies in a window. -/
def contains (window : Window) (y : Float) : Bool :=
  decide (window.yMin ≤ y) && decide (y ≤ window.yMax)

end Window
end GraphingCalculator
