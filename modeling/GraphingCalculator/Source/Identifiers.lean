import GraphingCalculator.Source.Segment

/-!
# Identifiers of a source

The identifiers of a source are found without looking them up, and mistakes
elsewhere do not hide them.  Renaming one replaces exactly the segments that
spell it.
-/

namespace GraphingCalculator

/-- The identifiers of a source with their byte offsets, in order. -/
def identifiers (source : Text) : List (Nat × Text) :=
  (locate 0 (segments source)).filterMap fun (position, segment) =>
    if segment.reading = .identifier then some (position, segment.text)
    else none

/-- Check whether a name is among the identifiers of a source. -/
def mentions (source name : Text) : Bool :=
  (identifiers source).any fun (_, identifier) => identifier = name

/-- The text of a segment after a renaming. -/
def Segment.renamedText (old new : Text) (segment : Segment) : Text :=
  if segment.reading = .identifier ∧ segment.text = old then new
  else segment.text

/-- The source with every identifier `old` replaced by `new`.  Names that only
contain `old` are left alone. -/
def renameIdentifier (old new source : Text) : Text :=
  (segments source).flatMap (Segment.renamedText old new)

end GraphingCalculator
