import GraphingCalculator.Worksheet.Editing

/-!
# Runs of a worksheet

A worksheet is changed by six operations.  An operation that is refused, or that
names a row which does not exist, leaves the worksheet as it is, so that every
sequence of operations is a run.  A definition that was there before the first
row keeps its place through a run, but it can be given other names.
-/

namespace GraphingCalculator
namespace Worksheet

/-- What can be done to a worksheet. -/
inductive Operation
  | pushRow
  | insertRow (index : Nat)
  | edit (index : Nat) (text : Text)
  | rename (old new : Text)
  | removeRow (index : Nat)
  | setEnabled (index : Nat) (isEnabled : Bool)
  deriving DecidableEq

/-- The worksheet after an operation. -/
def perform (sheet : Worksheet) : Operation → Worksheet
  | .pushRow => sheet.pushRow.2
  | .insertRow index => (sheet.insertRow index).2
  | .edit index text => ((sheet.edit? index text).map Prod.snd).getD sheet
  | .rename old new =>
      match sheet.rename old new with
      | .ok renamed => renamed
      | .error _ => sheet
  | .removeRow index => ((sheet.removeRow? index).map Prod.snd).getD sheet
  | .setEnabled index isEnabled =>
      (sheet.setEnabled? index isEnabled).getD sheet

/-- The worksheet after a sequence of operations. -/
def performAll (sheet : Worksheet) (operations : List Operation) : Worksheet :=
  operations.foldl perform sheet

/-- The name that a definition has after an operation. -/
def nameAfter (sheet : Worksheet) (operation : Operation) (name : Text) :
    Text :=
  match operation with
  | .rename old new =>
      match sheet.rename old new with
      | .ok _ => Expression.renameName old new name
      | .error _ => name
  | _ => name

/-- The name that a definition has after a sequence of operations. -/
def nameAfterAll (sheet : Worksheet) : List Operation → Text → Text
  | [], name => name
  | operation :: rest, name =>
      (sheet.perform operation).nameAfterAll rest
        (sheet.nameAfter operation name)

end Worksheet
end GraphingCalculator
