/-!
# Sets of characters

A set of characters is a list of ranges of code points, both ends included.
-/

namespace GraphingCalculator

/-- Ranges of code points, each given by its first and its last one. -/
abbrev CharacterSet := List (Nat × Nat)

namespace CharacterSet

/-- Check whether some range of the set holds the character. -/
def contains (ranges : CharacterSet) (character : Char) : Bool :=
  ranges.any fun (first, last) =>
    first ≤ character.toNat && character.toNat ≤ last

theorem contains_iff (ranges : CharacterSet) (character : Char) :
    ranges.contains character = true ↔
      ∃ range ∈ ranges,
        range.1 ≤ character.toNat ∧ character.toNat ≤ range.2 := by
  simp [contains]

end CharacterSet
end GraphingCalculator
