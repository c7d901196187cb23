import GraphingCalculator.SyntaxError
import Mathlib.Data.List.Basic

/-!
# Matching parentheses

Two parentheses are partners when what stands between them is balanced.  In a
sequence that is not balanced some parenthesis is without a partner.  The one to
blame is the first such closing parenthesis or, if there is none, the last
opening one.  A single pass with a stack of what is open finds it.
-/

namespace GraphingCalculator

/-- A parenthesis at its position. -/
inductive Parenthesis
  | opening (position : Nat)
  | closing (position : Nat)
  deriving DecidableEq

namespace Parenthesis

/-- Sequences of pairs, each around a sequence of pairs. -/
inductive IsBalanced : List Parenthesis → Prop
  | nil : IsBalanced []
  | pair (first second : Nat) {inside outside : List Parenthesis}
      (balancedInside : IsBalanced inside)
      (balancedOutside : IsBalanced outside) :
      IsBalanced (opening first :: (inside ++ closing second :: outside))

/-- A closing parenthesis behind this sequence has a partner in it. -/
def HasOpening (before : List Parenthesis) : Prop :=
  ∃ outside position inside,
    before = outside ++ opening position :: inside ∧ IsBalanced inside

/-- An opening parenthesis before this sequence has a partner in it. -/
def HasClosing (after : List Parenthesis) : Prop :=
  ∃ inside position outside,
    after = inside ++ closing position :: outside ∧ IsBalanced inside

/-- Every closing parenthesis has a partner. -/
def ClosingsMatch (parentheses : List Parenthesis) : Prop :=
  ∀ before position after,
    parentheses = before ++ closing position :: after → HasOpening before

/-- Every opening parenthesis has a partner. -/
def OpeningsMatch (parentheses : List Parenthesis) : Prop :=
  ∀ before position after,
    parentheses = before ++ opening position :: after → HasClosing after

/-- The parenthesis that is blamed: the first closing one without a partner, or
else the last opening one. -/
inductive Blames : List Parenthesis → SyntaxError → Prop
  | unmatchedClosing {before after : List Parenthesis} {position : Nat}
      (noPartner : ¬ HasOpening before) (isFirst : ClosingsMatch before) :
      Blames (before ++ closing position :: after)
        ⟨.unmatchedClosing, position⟩
  | unclosed {before after : List Parenthesis} {position : Nat}
      (closingsMatch : ClosingsMatch (before ++ opening position :: after))
      (noPartner : ¬ HasClosing after) (isLast : OpeningsMatch after) :
      Blames (before ++ opening position :: after) ⟨.unclosed, position⟩

/-- Match parentheses from left to right, with those that are open on a
stack. -/
def scan (opened : List Nat) : List Parenthesis → Except SyntaxError Unit
  | [] =>
      match opened with
      | [] => .ok ()
      | innermost :: _ => .error ⟨.unclosed, innermost⟩
  | opening position :: rest => scan (position :: opened) rest
  | closing position :: rest =>
      match opened with
      | [] => .error ⟨.unmatchedClosing, position⟩
      | _ :: outer => scan outer rest

section Partners

variable {first second : List Parenthesis} {position : Nat}

theorem HasOpening.append_left (partner : HasOpening second)
    (first : List Parenthesis) : HasOpening (first ++ second) := by
  obtain ⟨outside, position, inside, rfl, balanced⟩ := partner
  exact ⟨first ++ outside, position, inside, by simp, balanced⟩

theorem HasClosing.append_right (partner : HasClosing first)
    (second : List Parenthesis) : HasClosing (first ++ second) := by
  obtain ⟨inside, position, outside, rfl, balanced⟩ := partner
  exact ⟨inside, position, outside ++ second, by simp, balanced⟩

theorem closingsMatch_nil : ClosingsMatch [] := by
  intro before position after split
  simp at split

theorem openingsMatch_nil : OpeningsMatch [] := by
  intro before position after split
  simp at split

theorem ClosingsMatch.append (matchFirst : ClosingsMatch first)
    (matchSecond : ClosingsMatch second) :
    ClosingsMatch (first ++ second) := by
  intro before position after split
  rcases List.append_eq_append_iff.mp split with
    ⟨middle, rfl, isSecond⟩ | ⟨middle, rfl, isAfter⟩
  · exact (matchSecond middle position after isSecond).append_left first
  · cases middle with
    | nil =>
        have partner := matchSecond [] position after isAfter.symm
        simpa using partner.append_left before
    | cons next middle =>
        obtain ⟨rfl, -⟩ := List.cons.inj isAfter
        exact matchFirst before position middle rfl

theorem OpeningsMatch.append (matchFirst : OpeningsMatch first)
    (matchSecond : OpeningsMatch second) :
    OpeningsMatch (first ++ second) := by
  intro before position after split
  rcases List.append_eq_append_iff.mp split with
    ⟨middle, rfl, isSecond⟩ | ⟨middle, rfl, isAfter⟩
  · exact matchSecond middle position after isSecond
  · cases middle with
    | nil => exact matchSecond [] position after isAfter.symm
    | cons next middle =>
        obtain ⟨rfl, rfl⟩ := List.cons.inj isAfter
        exact (matchFirst before position middle rfl).append_right second

theorem closingsMatch_opening (position : Nat) :
    ClosingsMatch [opening position] := by
  intro before other after split
  cases before <;> simp at split

theorem openingsMatch_closing (position : Nat) :
    OpeningsMatch [closing position] := by
  intro before other after split
  cases before <;> simp at split

theorem ClosingsMatch.closing (closingsMatch : ClosingsMatch first)
    (partner : HasOpening first) (position : Nat) :
    ClosingsMatch (first ++ [.closing position]) := by
  intro before other after split
  rcases List.append_eq_append_iff.mp split with
    ⟨middle, rfl, isLast⟩ | ⟨middle, rfl, isAfter⟩
  · cases middle with
    | nil => simpa using partner
    | cons next middle => simp at isLast
  · cases middle with
    | nil => simpa using partner
    | cons next middle =>
        obtain ⟨rfl, -⟩ := List.cons.inj isAfter
        exact closingsMatch before other middle rfl

theorem OpeningsMatch.opening (openingsMatch : OpeningsMatch second)
    (partner : HasClosing second) (position : Nat) :
    OpeningsMatch (.opening position :: second) := by
  intro before other after split
  cases before with
  | nil =>
      obtain ⟨-, rfl⟩ := List.cons.inj split
      exact partner
  | cons next before =>
      obtain ⟨-, isSecond⟩ := List.cons.inj split
      exact openingsMatch before other after isSecond

theorem IsBalanced.append (balancedFirst : IsBalanced first)
    (balancedSecond : IsBalanced second) : IsBalanced (first ++ second) := by
  induction balancedFirst with
  | nil => exact balancedSecond
  | pair left right balancedInside _ _ ih =>
      simpa using IsBalanced.pair left right balancedInside ih

/-- In a balanced sequence no parenthesis is without a partner. -/
theorem IsBalanced.closingsMatch (balanced : IsBalanced first) :
    ClosingsMatch first := by
  induction balanced with
  | nil => exact closingsMatch_nil
  | @pair left right inside outside balancedInside _ insideIH outsideIH =>
      have partner : HasOpening ([.opening left] ++ inside) :=
        ⟨[], left, inside, rfl, balancedInside⟩
      have closed := ((closingsMatch_opening left).append insideIH).closing
        partner right
      simpa using closed.append outsideIH

theorem IsBalanced.openingsMatch (balanced : IsBalanced first) :
    OpeningsMatch first := by
  induction balanced with
  | nil => exact openingsMatch_nil
  | @pair left right inside outside balancedInside _ insideIH outsideIH =>
      have partner : HasClosing (inside ++ .closing right :: outside) :=
        ⟨inside, right, outside, rfl, balancedInside⟩
      have closed := insideIH.append
        ((openingsMatch_closing right).append outsideIH)
      exact closed.opening partner left

/-- A balanced sequence has no partner for a parenthesis behind it: the opening
one would have a partner inside, with a shorter sequence before it. -/
theorem IsBalanced.not_hasOpening (balanced : IsBalanced first) :
    ¬ HasOpening first := by
  induction size : first.length using Nat.strongRecOn generalizing first with
  | ind bound ih =>
      rintro ⟨outside, position, inside, rfl, balancedInside⟩
      obtain ⟨shorter, other, after, rfl, balancedShorter⟩ :=
        balanced.openingsMatch outside position inside rfl
      have partner : HasOpening shorter :=
        balancedInside.closingsMatch shorter other after rfl
      refine ih shorter.length ?_ balancedShorter rfl partner
      simp only [List.length_append, List.length_cons] at size
      omega

theorem IsBalanced.not_hasClosing (balanced : IsBalanced first) :
    ¬ HasClosing first := by
  rintro ⟨inside, position, outside, rfl, balancedInside⟩
  exact balancedInside.not_hasOpening
    (balanced.closingsMatch inside position outside rfl)

theorem Blames.not_isBalanced {error : SyntaxError}
    (blames : Blames first error) : ¬ IsBalanced first := by
  intro balanced
  cases blames with
  | unmatchedClosing noPartner =>
      exact noPartner (balanced.closingsMatch _ _ _ rfl)
  | unclosed _ noPartner =>
      exact noPartner (balanced.openingsMatch _ _ _ rfl)

end Partners

/-- Two places in one sequence: they are the same, or one of them is before the
other. -/
theorem split_cases {before after other rest : List Parenthesis}
    {first second : Parenthesis}
    (same : before ++ first :: after = other ++ second :: rest) :
    first = second ∨
      (∃ middle, other = before ++ first :: middle ∧
        after = middle ++ second :: rest) ∨
      ∃ middle, before = other ++ second :: middle ∧
        rest = middle ++ first :: after := by
  rcases List.append_eq_append_iff.mp same with
    ⟨middle, isOther, isAfter⟩ | ⟨middle, isBefore, isRest⟩
  · cases middle with
    | nil => exact .inl (List.cons.inj isAfter).1
    | cons next middle =>
        obtain ⟨rfl, rfl⟩ := List.cons.inj isAfter
        exact .inr (.inl ⟨middle, isOther, rfl⟩)
  · cases middle with
    | nil => exact .inl (List.cons.inj isRest).1.symm
    | cons next middle =>
        obtain ⟨rfl, rfl⟩ := List.cons.inj isRest
        exact .inr (.inr ⟨middle, isBefore, rfl⟩)

/-- Only one parenthesis is blamed. -/
theorem Blames.unique {parentheses : List Parenthesis}
    {first second : SyntaxError} (blamesFirst : Blames parentheses first)
    (blamesSecond : Blames parentheses second) : first = second := by
  generalize same : parentheses = others at blamesSecond
  cases blamesFirst with
  | unmatchedClosing noPartner isFirst =>
      cases blamesSecond with
      | unmatchedClosing otherNoPartner otherIsFirst =>
          rcases split_cases same with
            isSame | ⟨middle, isBefore, -⟩ | ⟨middle, isBefore, -⟩
          · cases isSame
            rfl
          · exact absurd (otherIsFirst _ _ _ isBefore) noPartner
          · exact absurd (isFirst _ _ _ isBefore) otherNoPartner
      | unclosed closingsMatch =>
          exact absurd (closingsMatch _ _ _ same.symm) noPartner
  | unclosed closingsMatch noPartner isLast =>
      cases blamesSecond with
      | unmatchedClosing otherNoPartner =>
          exact absurd (closingsMatch _ _ _ same) otherNoPartner
      | unclosed _ otherNoPartner otherIsLast =>
          rcases split_cases same with
            isSame | ⟨middle, -, isAfter⟩ | ⟨middle, -, isAfter⟩
          · cases isSame
            rfl
          · exact absurd (isLast _ _ _ isAfter) otherNoPartner
          · exact absurd (otherIsLast _ _ _ isAfter) noPartner

/-- What was read so far leaves parentheses open, the innermost one first, with
balanced sequences around them. -/
inductive Leaves : List Parenthesis → List Nat → Prop
  | balanced {read : List Parenthesis} (isBalanced : IsBalanced read) :
      Leaves read []
  | inside {read inner : List Parenthesis} {opened : List Nat}
      (outer : Leaves read opened) (position : Nat)
      (isBalanced : IsBalanced inner) :
      Leaves (read ++ opening position :: inner) (position :: opened)

section Scan

variable {read : List Parenthesis} {opened : List Nat} {position : Nat}

theorem Leaves.append (leaves : Leaves read opened)
    {more : List Parenthesis} (balanced : IsBalanced more) :
    Leaves (read ++ more) opened := by
  cases leaves with
  | balanced isBalanced => exact .balanced (isBalanced.append balanced)
  | inside outer position isBalanced =>
      simpa using outer.inside position (isBalanced.append balanced)

theorem Leaves.open (leaves : Leaves read opened) (position : Nat) :
    Leaves (read ++ [opening position]) (position :: opened) :=
  leaves.inside position .nil

theorem Leaves.close (leaves : Leaves read (position :: opened))
    (other : Nat) : Leaves (read ++ [closing other]) opened := by
  cases leaves with
  | inside outer position isBalanced =>
      simpa using outer.append (.pair position other isBalanced .nil)

theorem Leaves.hasOpening (leaves : Leaves read (position :: opened)) :
    HasOpening read := by
  cases leaves with
  | inside outer position isBalanced => exact ⟨_, _, _, rfl, isBalanced⟩

theorem Leaves.isBalanced (leaves : Leaves read []) : IsBalanced read := by
  cases leaves with
  | balanced isBalanced => exact isBalanced

/-- The parenthesis that is open innermost in the end is blamed. -/
theorem Leaves.blames (leaves : Leaves read (position :: opened))
    (closingsMatch : ClosingsMatch read) :
    Blames read ⟨.unclosed, position⟩ := by
  cases leaves with
  | inside outer position isBalanced =>
      exact .unclosed closingsMatch isBalanced.not_hasClosing
        isBalanced.openingsMatch

/-- The pass blames the right parenthesis, whatever it has read before. -/
theorem Leaves.scan (leaves : Leaves read opened)
    (closingsMatch : ClosingsMatch read) (rest : List Parenthesis) :
    (Parenthesis.scan opened rest = .ok () ∧ IsBalanced (read ++ rest)) ∨
      ∃ error, Parenthesis.scan opened rest = .error error ∧
        Blames (read ++ rest) error := by
  induction rest generalizing read opened with
  | nil =>
      rw [List.append_nil]
      cases opened with
      | nil => exact .inl ⟨rfl, leaves.isBalanced⟩
      | cons innermost outer =>
          exact .inr ⟨_, rfl, leaves.blames closingsMatch⟩
  | cons next rest ih =>
      rw [List.append_cons]
      cases next with
      | opening position =>
          exact ih (leaves.open position)
            (closingsMatch.append (closingsMatch_opening position))
      | closing position =>
          cases opened with
          | nil =>
              refine .inr ⟨_, rfl, ?_⟩
              rw [← List.append_cons]
              exact .unmatchedClosing leaves.isBalanced.not_hasOpening
                closingsMatch
          | cons innermost outer =>
              exact ih (leaves.close position)
                (closingsMatch.closing leaves.hasOpening position)

variable (parentheses : List Parenthesis)

theorem scan_cases :
    (scan [] parentheses = .ok () ∧ IsBalanced parentheses) ∨
      ∃ error, scan [] parentheses = .error error ∧
        Blames parentheses error :=
  (Leaves.balanced .nil).scan closingsMatch_nil parentheses

variable {parentheses}

/-- The pass succeeds on balanced sequences. -/
theorem scan_eq_ok_iff :
    scan [] parentheses = .ok () ↔ IsBalanced parentheses := by
  rcases scan_cases parentheses with ⟨passes, balanced⟩ | ⟨error, fails, blames⟩
  · exact ⟨fun _ => balanced, fun _ => passes⟩
  · exact ⟨fun passes => by rw [passes] at fails; contradiction,
      fun balanced => absurd balanced blames.not_isBalanced⟩

/-- The pass fails at the parenthesis that is blamed. -/
theorem scan_eq_error_iff {error : SyntaxError} :
    scan [] parentheses = .error error ↔ Blames parentheses error := by
  rcases scan_cases parentheses with ⟨passes, balanced⟩ | ⟨other, fails, blames⟩
  · rw [passes]
    exact ⟨fun impossible => by contradiction,
      fun blames => absurd balanced blames.not_isBalanced⟩
  · rw [fails, Except.error.injEq]
    exact ⟨fun same => same ▸ blames, blames.unique⟩

/-- Where a sequence is not balanced, a parenthesis is blamed. -/
theorem exists_blames (unbalanced : ¬ IsBalanced parentheses) :
    ∃ error, Blames parentheses error := by
  rcases scan_cases parentheses with ⟨-, balanced⟩ | ⟨error, -, blames⟩
  · exact absurd balanced unbalanced
  · exact ⟨error, blames⟩

end Scan
end Parenthesis
end GraphingCalculator
