import GraphingCalculator.Proofs.Source.Legibility
import GraphingCalculator.Proofs.Source.Slices

/-!
# Renaming identifiers is exact

A renaming replaces the identifiers that spell the old name, and no other
character.  The new source has the identifiers of the old one, renamed and
moved, and the renaming can be undone.  There is one exception to this: the
characters of a derivative can come together where an identifier begins, and
then the derivative is read in its place.
-/

namespace GraphingCalculator

open Text

/-- A text with the word `old` replaced by `new` at some byte positions, and
with nothing else changed.  The text begins at the position `start`. -/
inductive IsReplaced (old new : Text) : Nat → List Nat → Text → Text → Prop
  | unchanged (start : Nat) (text : Text) : IsReplaced old new start [] text text
  | replaced {start : Nat} (gap : Text) {positions : List Nat}
      {text changed : Text}
      (rest : IsReplaced old new (start + byteSize gap + byteSize old)
        positions text changed) :
      IsReplaced old new start ((start + byteSize gap) :: positions)
        (gap ++ (old ++ text)) (gap ++ (new ++ changed))

/-- The text with the bytes between two positions replaced.  There is none if a
position falls into a character or behind the end. -/
def replaceBytes? (text : Text) (start finish : Nat) (word : Text) :
    Option Text := do
  let (before, _) ← splitAtByte? text start
  let (_, after) ← splitAtByte? text finish
  return before ++ (word ++ after)

/-- A renaming that replaces the identifiers at their positions, from the last
one to the first one. -/
def renameByBytes? (old new source : Text) : Option Text :=
  ((identifiers source).reverse.filter fun (_, name) => name = old).foldlM
    (fun text (position, _) =>
      replaceBytes? text position (position + byteSize old) new) source

/-- Identifiers after a renaming.  Each one is moved by what those before it
have grown. -/
def moveNames (old new : Text) : Int → List (Nat × Text) → List (Int × Text)
  | _, [] => []
  | growth, (position, name) :: rest =>
      let renamed := Expression.renameName old new name
      (position + growth, renamed) ::
        moveNames old new (growth + (byteSize renamed - byteSize name)) rest

/-- After a renaming the characters of a derivative stand where an identifier
should begin. -/
def SpellsDerivative (old new source : Text) : Prop :=
  ∃ before after,
    before ++ (derivativeName ++ after) = renameIdentifier old new source ∧
      ∃ name, ((byteSize before : Int), name) ∈
        moveNames old new 0 (identifiers source)

section Names

variable {start : Nat} {old new name : Text} {piece : Segment}

/-- The identifiers among segments, the first of which begins at `start`. -/
def namesFrom (start : Nat) (pieces : List Segment) : List (Nat × Text) :=
  (locate start pieces).filterMap fun (position, segment) =>
    if segment.reading = .identifier then some (position, segment.text)
    else none

theorem identifiers_eq_namesFrom (source : Text) :
    identifiers source = namesFrom 0 (segments source) :=
  rfl

theorem namesFrom_cons_identifier (start : Nat) (name : Text)
    (rest : List Segment) :
    namesFrom start (⟨name, .identifier⟩ :: rest) =
      (start, name) :: namesFrom (start + byteSize name) rest :=
  rfl

theorem namesFrom_cons_other (notName : piece.reading ≠ .identifier)
    (start : Nat) (rest : List Segment) :
    namesFrom start (piece :: rest) =
      namesFrom (start + byteSize piece.text) rest := by
  rw [namesFrom, locate, List.filterMap_cons]
  dsimp only
  rw [if_neg notName]
  rfl

theorem mem_namesFrom_iff {position : Nat} {pieces : List Segment} :
    (position, name) ∈ namesFrom start pieces ↔
      ∃ before rest, pieces = before ++ ⟨name, .identifier⟩ :: rest ∧
        position = start + byteSize (before.flatMap Segment.text) := by
  induction pieces generalizing start with
  | nil => simp [namesFrom, locate]
  | cons piece pieces ih =>
      have isLater : (∃ before rest,
          pieces = before ++ ⟨name, .identifier⟩ :: rest ∧
            position = start + byteSize piece.text +
              byteSize (before.flatMap Segment.text)) →
          ∃ before rest, piece :: pieces =
            before ++ ⟨name, .identifier⟩ :: rest ∧
              position = start + byteSize (before.flatMap Segment.text) := by
        rintro ⟨before, rest, rfl, rfl⟩
        exact ⟨piece :: before, rest, rfl, by simp [Nat.add_assoc]⟩
      constructor
      · intro member
        by_cases isName : piece.reading = .identifier
        · obtain ⟨text, reading⟩ := piece
          cases isName
          rw [namesFrom_cons_identifier, List.mem_cons] at member
          rcases member with isFirst | later
          · cases isFirst
            exact ⟨[], pieces, rfl, by simp⟩
          · exact isLater (ih.mp later)
        · rw [namesFrom_cons_other isName] at member
          exact isLater (ih.mp member)
      · rintro ⟨before, rest, split, isPosition⟩
        cases before with
        | nil =>
            obtain ⟨rfl, rfl⟩ := List.cons.inj split
            rw [namesFrom_cons_identifier, isPosition]
            exact List.mem_cons_self
        | cons first before =>
            obtain ⟨rfl, rfl⟩ := List.cons.inj split
            have later : (position, name) ∈ namesFrom
                (start + byteSize piece.text)
                (before ++ ⟨name, .identifier⟩ :: rest) :=
              ih.mpr ⟨before, rest, rfl, by simp [isPosition, Nat.add_assoc]⟩
            by_cases isName : piece.reading = .identifier
            · obtain ⟨text, reading⟩ := piece
              cases isName
              rw [namesFrom_cons_identifier]
              exact List.mem_cons_of_mem _ later
            · rwa [namesFrom_cons_other isName]

/-- Renaming segments moves the identifiers among them. -/
theorem moveNames_namesFrom {growth : Int} {later : Nat}
    (moved : (later : Int) = start + growth) (old new : Text)
    (pieces : List Segment) :
    moveNames old new growth (namesFrom start pieces) =
      (namesFrom later (pieces.map (Segment.rename old new))).map
        fun (position, name) => ((position : Int), name) := by
  induction pieces generalizing start growth later with
  | nil => rfl
  | cons piece rest ih =>
      rw [List.map_cons]
      by_cases isName : piece.reading = .identifier
      · obtain ⟨name, reading⟩ := piece
        cases isName
        have movedRest :
            ((later + byteSize (Expression.renameName old new name) : Nat) :
              Int) = (start + byteSize name : Nat) + (growth +
                (byteSize (Expression.renameName old new name) -
                  byteSize name)) := by
          push_cast
          omega
        rw [namesFrom_cons_identifier, Segment.rename_identifier,
          namesFrom_cons_identifier, moveNames, List.map_cons, ih movedRest,
          ← moved]
      · have movedRest : ((later + byteSize piece.text : Nat) : Int) =
            (start + byteSize piece.text : Nat) + growth := by
          push_cast
          omega
        rw [Segment.rename_of_ne_identifier isName,
          namesFrom_cons_other isName, namesFrom_cons_other isName,
          ih movedRest]

theorem moveNames_identifiers (old new source : Text) :
    moveNames old new 0 (identifiers source) =
      (namesFrom 0 ((segments source).map (Segment.rename old new))).map
        fun (position, name) => ((position : Int), name) := by
  have notMoved : ((0 : Nat) : Int) = (0 : Nat) + 0 := rfl
  rw [identifiers_eq_namesFrom, moveNames_namesFrom notMoved]

end Names

section Replacing

variable {start : Nat} {old new : Text}

theorem IsReplaced.append {positions : List Nat} {text changed : Text}
    {front : Text} (replaced : IsReplaced old new (start + byteSize front)
      positions text changed) :
    IsReplaced old new start positions (front ++ text)
      (front ++ changed) := by
  generalize isStart : start + byteSize front = first at replaced
  cases replaced with
  | unchanged => exact .unchanged start (front ++ text)
  | @replaced _ gap positions text changed rest =>
      subst isStart
      rw [Nat.add_assoc start, ← byteSize_append] at rest ⊢
      rw [← List.append_assoc, ← List.append_assoc front]
      exact .replaced (front ++ gap) rest

/-- Renaming segments replaces the old name where an identifier spells it. -/
theorem isReplaced_flatMap (start : Nat) (old new : Text)
    (pieces : List Segment) :
    IsReplaced old new start
      (((namesFrom start pieces).filter fun (_, name) => name = old).map
        Prod.fst)
      (pieces.flatMap Segment.text)
      (pieces.flatMap (Segment.renamedText old new)) := by
  induction pieces generalizing start with
  | nil => exact .unchanged start []
  | cons piece rest ih =>
      have others := ih (start + byteSize piece.text)
      rw [List.flatMap_cons, List.flatMap_cons]
      by_cases isOld : piece.reading = .identifier ∧ piece.text = old
      · obtain ⟨name, reading⟩ := piece
        obtain ⟨isName, rfl⟩ := isOld
        cases isName
        rw [namesFrom_cons_identifier,
          List.filter_cons_of_pos (by simp), Segment.renamedText,
          if_pos ⟨rfl, rfl⟩]
        exact .replaced [] others
      · have notOld : ((namesFrom start (piece :: rest)).filter
            fun (_, name) => name = old) =
              (namesFrom (start + byteSize piece.text) rest).filter
                fun (_, name) => name = old := by
          by_cases isName : piece.reading = .identifier
          · obtain ⟨name, reading⟩ := piece
            cases isName
            rw [namesFrom_cons_identifier, List.filter_cons_of_neg]
            simpa using isOld
          · rw [namesFrom_cons_other isName]
        rw [notOld, Segment.renamedText, if_neg isOld]
        exact others.append

theorem replaceBytes?_append (front word after new : Text) :
    replaceBytes? (front ++ (word ++ after)) (byteSize front)
        (byteSize front + byteSize word) new =
      some (front ++ (new ++ after)) := by
  have finish := splitAtByte?_append (front ++ word) after
  rw [List.append_assoc, byteSize_append] at finish
  rw [replaceBytes?, splitAtByte?_append, finish]
  rfl

/-- The identifiers behind the one that is replaced were replaced before it, so
that its position is still the right one. -/
theorem foldlM_replaceBytes? (old new front : Text) (pieces : List Segment) :
    ((namesFrom (byteSize front) pieces).reverse.filter
        fun (_, name) => name = old).foldlM
      (fun text (position, _) =>
        replaceBytes? text position (position + byteSize old) new)
      (front ++ pieces.flatMap Segment.text) =
        some (front ++ pieces.flatMap (Segment.renamedText old new)) := by
  induction pieces generalizing front with
  | nil => rfl
  | cons piece rest ih =>
      have others := ih (front ++ piece.text)
      rw [byteSize_append, List.append_assoc] at others
      rw [List.flatMap_cons, List.flatMap_cons]
      by_cases isName : piece.reading = .identifier
      · obtain ⟨name, reading⟩ := piece
        cases isName
        rw [namesFrom_cons_identifier, List.reverse_cons, List.filter_append,
          List.foldlM_append, others, Option.bind_eq_bind, Option.bind_some]
        by_cases isOld : name = old
        · subst isOld
          rw [List.filter_cons_of_pos (by simp), List.foldlM_cons]
          dsimp only
          rw [List.append_assoc, replaceBytes?_append, Segment.renamedText,
            if_pos ⟨rfl, rfl⟩]
          rfl
        · rw [List.filter_cons_of_neg (by simpa using isOld),
            Segment.renamedText, if_neg fun both => isOld both.2,
            List.append_assoc]
          rfl
      · rw [namesFrom_cons_other isName, others, Segment.renamedText,
          if_neg fun both => isName both.1, List.append_assoc]

/-- No position stops the replacement, and it gives the renamed source. -/
theorem renameByBytes?_eq (old new source : Text) :
    renameByBytes? old new source = some (renameIdentifier old new source) := by
  have replaces := foldlM_replaceBytes? old new [] (segments source)
  rw [List.nil_append, flatMap_text_segments] at replaces
  exact replaces

end Replacing

section Reading

variable {old new source : Text}

/-- A name that is read as one identifier is legible. -/
theorem isLegible_of_identifiers (isSingle : identifiers new = [(0, new)]) :
    IsLegible new := by
  have member : (0, new) ∈ namesFrom 0 (segments new) := by
    rw [← identifiers_eq_namesFrom, isSingle]
    exact List.mem_cons_self
  obtain ⟨before, rest, split, -⟩ := mem_namesFrom_iff.mp member
  have isPiece : (⟨new, .identifier⟩ : Segment) ∈ segments new := by
    simp [split]
  cases Segment.isWellRead_of_mem_segments isPiece with
  | identifier isName notVariable => exact ⟨isName, notVariable⟩

/-- The renamed segments are read one by one up to the first identifier at which
the characters of a derivative stand. -/
theorem segments_rename_or (legible : IsLegible new) (old : Text)
    {pieces : List Segment} (suffix : pieces <:+ segments source) :
    segments ((pieces.map (Segment.rename old new)).flatMap Segment.text) =
        pieces.map (Segment.rename old new) ∨
      ∃ before name rest later, pieces = before ++ ⟨name, .identifier⟩ :: rest ∧
        segments ((pieces.map (Segment.rename old new)).flatMap
            Segment.text) =
          before.map (Segment.rename old new) ++
            ⟨derivativeName, .token .function⟩ :: later := by
  induction pieces with
  | nil => exact .inl segments_nil
  | cons piece rest ih =>
      by_cases spells : piece.reading = .identifier ∧ derivativeName <+:
          ((piece :: rest).map (Segment.rename old new)).flatMap Segment.text
      · obtain ⟨name, reading⟩ := piece
        obtain ⟨isName, after, split⟩ := spells
        cases isName
        refine .inr ⟨[], name, rest, segments after, rfl, ?_⟩
        have isRead : Segment.IsRead ⟨derivativeName, .token .function⟩
            after := by
          refine ⟨'d', ['/', 'd', 'x'], rfl, ?_⟩
          have isDerivative : derivativeName <+:
              'd' :: (['/', 'd', 'x'] ++ after) :=
            List.prefix_append derivativeName after
          rw [Segment.beginning_of_isLower rfl, if_neg (by decide),
            if_pos isDerivative]
        rw [← split]
        exact isRead.segments_append
      · have isRead := isRead_rename legible.isName legible.notVariable
          suffix fun isName isDerivative => spells ⟨isName, isDerivative⟩
        rw [List.map_cons, List.flatMap_cons, isRead.segments_append]
        rcases ih ((List.suffix_cons piece rest).trans suffix) with
          same | ⟨before, name, others, later, rfl, stops⟩
        · exact .inl (by rw [same])
        · exact .inr ⟨piece :: before, name, others, later, rfl,
            by rw [stops]; rfl⟩

/-- Where an identifier is read, no derivative is spelled. -/
theorem not_spellsDerivative_of_identifiers
    (moved : (identifiers (renameIdentifier old new source)).map
        (fun (position, name) => ((position : Int), name)) =
      moveNames old new 0 (identifiers source)) :
    ¬ SpellsDerivative old new source := by
  rintro ⟨before, after, split, name, member⟩
  rw [← moved, List.mem_map] at member
  obtain ⟨⟨position, found⟩, isFound, same⟩ := member
  obtain ⟨isPosition, rfl⟩ := Prod.mk.inj same
  obtain ⟨front, rest, pieces, isFront⟩ := mem_namesFrom_iff.mp isFound
  have isSource := flatMap_text_segments (renameIdentifier old new source)
  rw [pieces, List.flatMap_append, List.flatMap_cons, ← split] at isSource
  have sameSize : byteSize (front.flatMap Segment.text) = byteSize before := by
    omega
  have cuts := splitAtByte?_eq_some_iff.mpr ⟨isSource, sameSize⟩
  rw [splitAtByte?_append, Option.some.injEq, Prod.mk.injEq] at cuts
  have isRead := Segment.isRead_of_suffix ⟨front, pieces.symm⟩
  refine (Segment.isRead_identifier_iff.mp isRead).2.2.1 ?_
  exact ⟨after, cuts.2⟩

/-- The renamed source falls into the renamed segments if no derivative is
spelled. -/
theorem segments_of_not_spellsDerivative (legible : IsLegible new)
    (notSpells : ¬ SpellsDerivative old new source) :
    segments (renameIdentifier old new source) =
      (segments source).map (Segment.rename old new) := by
  rw [renameIdentifier_eq_flatMap_text]
  refine (segments_rename_or legible old (List.suffix_refl _)).resolve_right ?_
  rintro ⟨before, name, rest, later, split, stops⟩
  refine notSpells ⟨(before.map (Segment.rename old new)).flatMap Segment.text,
    later.flatMap Segment.text, ?_, Expression.renameName old new name, ?_⟩
  · rw [renameIdentifier_eq_flatMap_text, ← flatMap_text_segments
      (((segments source).map (Segment.rename old new)).flatMap Segment.text),
      stops, List.flatMap_append, List.flatMap_cons]
  · rw [moveNames_identifiers, List.mem_map]
    refine ⟨(_, _), mem_namesFrom_iff.mpr
      ⟨before.map (Segment.rename old new), rest.map (Segment.rename old new),
        ?_, rfl⟩, by rw [Nat.zero_add]⟩
    rw [split, List.map_append, List.map_cons, Segment.rename_identifier]

theorem identifiers_of_segments (same :
    segments (renameIdentifier old new source) =
      (segments source).map (Segment.rename old new)) :
    (identifiers (renameIdentifier old new source)).map
        (fun (position, name) => ((position : Int), name)) =
      moveNames old new 0 (identifiers source) := by
  rw [identifiers_eq_namesFrom, same, moveNames_identifiers]

/-- If a derivative is spelled, the old name does not come back in front of
it. -/
theorem renameIdentifier_back_ne (legible : IsLegible new)
    (notMentioned : mentions source new = false)
    (spells : SpellsDerivative old new source) :
    renameIdentifier new old (renameIdentifier old new source) ≠ source := by
  rcases segments_rename_or legible old
      (List.suffix_refl (segments source)) with
    same | ⟨before, name, rest, later, split, stops⟩
  · rw [← renameIdentifier_eq_flatMap_text] at same
    exact absurd spells
      (not_spellsDerivative_of_identifiers (identifiers_of_segments same))
  · intro isBack
    have backBefore : (before.map (Segment.rename old new)).map
        (Segment.rename new old) = before := by
      have back : ((segments source).map (Segment.rename old new)).map
          (Segment.rename new old) = segments source :=
        map_rename_rename notMentioned
      rw [split, List.map_append, List.map_append] at back
      exact (List.append_inj back (by simp)).1
    have isSource := flatMap_text_segments source
    rw [renameIdentifier_eq_flatMap_text, renameIdentifier_eq_flatMap_text,
      stops, List.map_append, backBefore, List.map_cons,
      Segment.rename_of_ne_identifier (by simp), List.flatMap_append,
      List.flatMap_cons] at isBack
    rw [split, List.flatMap_append, List.flatMap_cons, ← isBack,
      List.append_cancel_left_eq] at isSource
    have isRead := Segment.isRead_of_suffix ⟨before, split.symm⟩
    refine (Segment.isRead_identifier_iff.mp isRead).2.2.1 ?_
    exact ⟨_, isSource.symm⟩

end Reading

/-- Renaming a name to one that is read as one identifier.  Nothing is changed
but the identifiers that spell the old name, each in its place.  The identifiers
of the new source are the renamed ones, and the renaming of a new name can be
undone, if and only if no derivative is spelled where an identifier should
begin. -/
theorem identifiers_renameIdentifier {new : Text}
    (isSingle : identifiers new = [(0, new)]) (old source : Text) :
    let renamed := renameIdentifier old new source
    renameByBytes? old new source = some renamed ∧
      IsReplaced old new 0
        (((identifiers source).filter fun (_, name) => name = old).map Prod.fst)
        source renamed ∧
      ((identifiers renamed).map
          (fun (position, name) => ((position : Int), name)) =
        moveNames old new 0 (identifiers source) ↔
          ¬ SpellsDerivative old new source) ∧
      (mentions source new = false →
        (renameIdentifier new old renamed = source ↔
          ¬ SpellsDerivative old new source)) := by
  intro renamed
  have legible := isLegible_of_identifiers isSingle
  refine ⟨renameByBytes?_eq old new source, ?_,
    ⟨not_spellsDerivative_of_identifiers, fun notSpells =>
      identifiers_of_segments
        (segments_of_not_spellsDerivative legible notSpells)⟩,
    fun notMentioned => ⟨fun isBack spells =>
      renameIdentifier_back_ne legible notMentioned spells isBack,
      fun notSpells => ?_⟩⟩
  · have replaced := isReplaced_flatMap 0 old new (segments source)
    rw [flatMap_text_segments] at replaced
    exact replaced
  · rw [renameIdentifier_eq_flatMap_text,
      segments_of_not_spellsDerivative legible notSpells,
      map_rename_rename notMentioned, flatMap_text_segments]

/-- Behind the mistake of a second point, and next to a longer name. -/
theorem identifiers_renameIdentifier_radius :
    let source := "1..r + r2 # 2r".toList
    identifiers "radius".toList = [(0, "radius".toList)] ∧
      ¬ SpellsDerivative "r".toList "radius".toList source ∧
      IsReplaced "r".toList "radius".toList 0 [3, 13] source
        "1..radius + r2 # 2radius".toList ∧
      renameIdentifier "radius".toList "r".toList
        "1..radius + r2 # 2radius".toList = source := by
  intro source
  have isSingle : identifiers "radius".toList = [(0, "radius".toList)] := by
    decide +kernel
  have isRenamed : renameIdentifier "r".toList "radius".toList source =
      "1..radius + r2 # 2radius".toList := by
    decide +kernel
  have isMoved : (identifiers "1..radius + r2 # 2radius".toList).map
      (fun (position, name) => ((position : Int), name)) =
        moveNames "r".toList "radius".toList 0 (identifiers source) := by
    decide +kernel
  have notMentioned : mentions source "radius".toList = false := by
    decide +kernel
  have positions : (((identifiers source).filter
      fun (_, name) => name = "r".toList).map Prod.fst) = [3, 13] := by
    decide +kernel
  obtain ⟨-, replaced, moved, undone⟩ :=
    identifiers_renameIdentifier isSingle "r".toList source
  rw [isRenamed] at replaced moved undone
  rw [positions] at replaced
  have notSpells := moved.mp isMoved
  exact ⟨isSingle, notSpells, replaced, (undone notMentioned).mpr notSpells⟩

/-- The name `d` completes a derivative. -/
theorem identifiers_renameIdentifier_derivative :
    let source := "a/dx".toList
    identifiers "d".toList = [(0, "d".toList)] ∧
      mentions source "d".toList = false ∧
      (identifiers (renameIdentifier "a".toList "d".toList source)).map
          (fun (position, name) => ((position : Int), name)) ≠
        moveNames "a".toList "d".toList 0 (identifiers source) ∧
      renameIdentifier "d".toList "a".toList
        (renameIdentifier "a".toList "d".toList source) ≠ source := by
  decide +kernel

end GraphingCalculator
