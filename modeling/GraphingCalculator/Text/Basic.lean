/-!
# Text as a list of characters

Sources, names and rows are lists of characters.  A position inside a text
counts the bytes of the UTF-8 encoding of everything that stands before it, so
positions of the parts of a text are sums of byte sizes.
-/

namespace GraphingCalculator

/-- The characters of a source, a name or a row. -/
abbrev Text := List Char

namespace Text

/-- Number of bytes of the UTF-8 encoding. -/
def byteSize : Text → Nat
  | [] => 0
  | character :: rest => character.utf8Size + byteSize rest

@[simp]
theorem byteSize_nil : byteSize [] = 0 :=
  rfl

@[simp]
theorem byteSize_cons (character : Char) (rest : Text) :
    byteSize (character :: rest) = character.utf8Size + byteSize rest :=
  rfl

@[simp]
theorem byteSize_append (first second : Text) :
    byteSize (first ++ second) = byteSize first + byteSize second := by
  induction first with
  | nil => simp
  | cons character rest ih => simp [ih, Nat.add_assoc]

/-- Everything before the first occurrence of a character, and everything
after it. -/
def splitAtFirst? (mark : Char) : Text → Option (Text × Text)
  | [] => none
  | character :: rest =>
      if character = mark then some ([], rest)
      else
        (splitAtFirst? mark rest).map fun (before, after) =>
          (character :: before, after)

theorem append_of_splitAtFirst?_eq_some {mark : Char} {text before after : Text}
    (split : splitAtFirst? mark text = some (before, after)) :
    before ++ mark :: after = text := by
  induction text generalizing before after with
  | nil => simp [splitAtFirst?] at split
  | cons character rest ih =>
      by_cases isMark : character = mark
      · simp [splitAtFirst?, isMark] at split
        simp [← split.1, ← split.2, isMark]
      · simp only [splitAtFirst?, isMark, if_false, Option.map_eq_some_iff,
          Prod.mk.injEq] at split
        obtain ⟨⟨inner, tail⟩, found, rfl, rfl⟩ := split
        simp [ih found]

/-- The pieces of a text between the occurrences of a character. -/
def splitAll (mark : Char) (text : Text) : List Text :=
  text.foldr
    (fun character pieces =>
      if character = mark then [] :: pieces
      else
        match pieces with
        | [] => [[character]]
        | piece :: rest => (character :: piece) :: rest)
    [[]]

end Text
end GraphingCalculator
