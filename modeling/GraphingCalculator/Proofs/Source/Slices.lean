import GraphingCalculator.Proofs.Sequence
import GraphingCalculator.Text.Basic

/-!
# Slices of a text

A program that works with byte positions cuts a text there, and it is stopped if
a position falls into a character or behind the end.  This file describes such
cuts, and the characters of a text with the bytes at which they begin.
-/

namespace GraphingCalculator

/-- Why a program ends early: it makes a slice that does not exist, or it
refuses its input. -/
inductive Stop (Error : Type)
  | panic
  | refusal (error : Error)
  deriving DecidableEq

namespace Text

variable {Error : Type}

/-- The two parts of a text at a byte position, which falls into no
character. -/
def splitAtByte? : Text → Nat → Option (Text × Text)
  | [], position => if position = 0 then some ([], []) else none
  | first :: rest, position =>
      if position = 0 then some ([], first :: rest)
      else if position < first.utf8Size then none
      else
        (splitAtByte? rest (position - first.utf8Size)).map
          fun (before, after) => (first :: before, after)

/-- The part of a text before a byte position. -/
def sliceTo (text : Text) (finish : Nat) : Except (Stop Error) Text :=
  match splitAtByte? text finish with
  | some (before, _) => .ok before
  | none => .error .panic

/-- The part of a text behind a byte position. -/
def sliceFrom (text : Text) (start : Nat) : Except (Stop Error) Text :=
  match splitAtByte? text start with
  | some (_, after) => .ok after
  | none => .error .panic

/-- The part of a text between two byte positions. -/
def slice (text : Text) (start finish : Nat) : Except (Stop Error) Text := do
  let before ← sliceTo text finish
  sliceFrom before start

/-- The character that begins at a byte position. -/
def characterAt? (text : Text) (position : Nat) : Option Char :=
  (splitAtByte? text position).bind fun (_, after) => after.head?

theorem splitAtByte?_append (before after : Text) :
    splitAtByte? (before ++ after) (byteSize before) =
      some (before, after) := by
  induction before with
  | nil => cases after <;> rfl
  | cons first rest ih =>
      have positive := first.utf8Size_pos
      rw [List.cons_append, byteSize_cons, splitAtByte?, if_neg (by omega),
        if_neg (by omega), Nat.add_sub_cancel_left, ih]
      rfl

/-- A text is cut where the first part ends, and nowhere else. -/
theorem splitAtByte?_eq_some_iff {text before after : Text} {position : Nat} :
    splitAtByte? text position = some (before, after) ↔
      before ++ after = text ∧ byteSize before = position := by
  constructor
  · intro cuts
    induction text generalizing position before with
    | nil =>
        rw [splitAtByte?] at cuts
        split at cuts
        next atStart =>
            cases cuts
            exact ⟨rfl, atStart.symm⟩
        next => contradiction
    | cons first rest ih =>
        rw [splitAtByte?] at cuts
        split at cuts
        next atStart =>
            cases cuts
            exact ⟨rfl, atStart.symm⟩
        split at cuts
        next => contradiction
        next outside =>
            obtain ⟨⟨inner, tail⟩, found, same⟩ :=
              Option.map_eq_some_iff.mp cuts
            cases same
            obtain ⟨rfl, size⟩ := ih found
            refine ⟨rfl, ?_⟩
            rw [byteSize_cons, size]
            omega
  · rintro ⟨rfl, rfl⟩
    exact splitAtByte?_append before after

theorem sliceTo_append (before after : Text) :
    sliceTo (before ++ after) (byteSize before) =
      (.ok before : Except (Stop Error) Text) := by
  rw [sliceTo, splitAtByte?_append]

theorem sliceFrom_append (before after : Text) :
    sliceFrom (before ++ after) (byteSize before) =
      (.ok after : Except (Stop Error) Text) := by
  rw [sliceFrom, splitAtByte?_append]

theorem slice_append (before middle after : Text) :
    slice (before ++ (middle ++ after)) (byteSize before)
        (byteSize before + byteSize middle) =
      (.ok middle : Except (Stop Error) Text) := by
  rw [slice, ← byteSize_append, ← List.append_assoc, sliceTo_append, ok_bind,
    sliceFrom_append]

theorem characterAt?_append (before after : Text) :
    characterAt? (before ++ after) (byteSize before) = after.head? := by
  rw [characterAt?, splitAtByte?_append]
  rfl

/-- The byte at which the first character that is looked for begins. -/
def find? (isFound : Char → Bool) : Text → Option Nat
  | [] => none
  | first :: rest =>
      if isFound first then some 0
      else (find? isFound rest).map (first.utf8Size + ·)

theorem find?_eq_splitAtFirst? (mark : Char) (text : Text) :
    find? (· = mark) text =
      (splitAtFirst? mark text).map fun (before, _) => byteSize before := by
  induction text with
  | nil => rfl
  | cons first rest ih =>
      rw [find?, splitAtFirst?]
      by_cases isMark : first = mark
      · simp [isMark]
      · simp only [isMark, decide_false, Bool.false_eq_true, if_false, ih]
        cases splitAtFirst? mark rest <;> rfl

theorem find?_eq_takeWhile (isFound : Char → Bool) (text : Text) :
    find? isFound text =
      if text.any isFound then
        some (byteSize (text.takeWhile fun character => !isFound character))
      else none := by
  induction text with
  | nil => rfl
  | cons first rest ih =>
      rw [find?]
      cases found : isFound first with
      | true => simp [found]
      | false =>
          simp only [ih, found, Bool.false_eq_true, if_false, List.any_cons,
            Bool.false_or]
          split <;> simp [found]

/-- The characters of a text with the bytes at which they begin, if the text
begins at `start`. -/
def charIndices (start : Nat) : Text → List (Nat × Char)
  | [] => []
  | first :: rest =>
      (start, first) :: charIndices (start + first.utf8Size) rest

/-- The byte at which what is left of a text begins. -/
def offsetOf (text : Text) (left : List (Nat × Char)) : Nat :=
  match left with
  | [] => byteSize text
  | (position, _) :: _ => position

theorem offsetOf_charIndices (before after : Text) :
    offsetOf (before ++ after) (charIndices (byteSize before) after) =
      byteSize before := by
  cases after with
  | nil => simp [charIndices, offsetOf]
  | cons first rest => rfl

/-- A word that stands in a text is the slice from where it begins to what is
left behind it. -/
theorem slice_offsetOf (front : Text) {word after rest : Text}
    (split : word ++ after = rest) :
    slice (front ++ rest) (byteSize front)
        (offsetOf (front ++ rest)
          (charIndices (byteSize front + byteSize word) after)) =
      (.ok word : Except (Stop Error) Text) := by
  have isOffset := offsetOf_charIndices (front ++ word) after
  rw [List.append_assoc, split, byteSize_append] at isOffset
  rw [isOffset, ← split, slice_append]

theorem charIndices_append (start : Nat) (before after : Text) :
    charIndices start (before ++ after) =
      charIndices start before ++
        charIndices (start + byteSize before) after := by
  induction before generalizing start with
  | nil => rfl
  | cons first rest ih =>
      rw [List.cons_append, charIndices, charIndices, ih, byteSize_cons,
        Nat.add_assoc]
      rfl

theorem length_charIndices (start : Nat) (text : Text) :
    (charIndices start text).length = text.length := by
  induction text generalizing start with
  | nil => rfl
  | cons first rest ih => simp [charIndices, ih]

theorem dropWhile_charIndices (drops : Char → Bool) (start : Nat)
    (text : Text) :
    (charIndices start text).dropWhile (fun (_, character) =>
        drops character) =
      charIndices (start + byteSize (text.takeWhile drops))
        (text.dropWhile drops) := by
  induction text generalizing start with
  | nil => rfl
  | cons first rest ih =>
      cases isDropped : drops first with
      | false => simp [charIndices, isDropped]
      | true => simp [charIndices, isDropped, ih, Nat.add_assoc]

end Text

end GraphingCalculator
