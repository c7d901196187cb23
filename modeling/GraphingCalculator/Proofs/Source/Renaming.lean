import GraphingCalculator.Proofs.Source.Reading

/-!
# When a renaming changes a source

A renaming replaces segments, and the old segments and the new ones line up one
by one.  The source is therefore unchanged only if no segment is, that is, if
the renamed identifier does not occur.
-/

namespace GraphingCalculator

/-- Texts that are put together alike from longer and shorter pieces are put
together from the same pieces. -/
private theorem eq_of_flatMap_eq {Piece : Type} {longer shorter : Piece → Text}
    {pieces : List Piece}
    (lengths : ∀ piece ∈ pieces, (shorter piece).length ≤ (longer piece).length)
    (same : pieces.flatMap longer = pieces.flatMap shorter) :
    ∀ piece ∈ pieces, longer piece = shorter piece := by
  have length_le (rest : List Piece)
      (lengths : ∀ piece ∈ rest,
        (shorter piece).length ≤ (longer piece).length) :
      (rest.flatMap shorter).length ≤ (rest.flatMap longer).length := by
    induction rest with
    | nil => exact Nat.le_refl 0
    | cons first rest ih =>
        have firstLength := lengths first List.mem_cons_self
        have restLength := ih fun piece member =>
          lengths piece (List.mem_cons_of_mem _ member)
        simp only [List.flatMap_cons, List.length_append]
        omega
  induction pieces with
  | nil => simp
  | cons first rest ih =>
      have restLengths : ∀ piece ∈ rest,
          (shorter piece).length ≤ (longer piece).length :=
        fun piece member => lengths piece (List.mem_cons_of_mem _ member)
      have firstLength := lengths first List.mem_cons_self
      have restLength := length_le rest restLengths
      have total := congrArg List.length same
      simp only [List.flatMap_cons, List.length_append] at same total
      obtain ⟨sameFirst, sameRest⟩ := List.append_inj same (by omega)
      intro piece member
      rcases List.mem_cons.mp member with rfl | inRest
      · exact sameFirst
      · exact ih restLengths sameRest piece inRest

theorem mentions_eq_false_iff {source name : Text} :
    mentions source name = false ↔
      ∀ segment ∈ segments source,
        ¬ (segment.reading = .identifier ∧ segment.text = name) := by
  rw [← Bool.not_eq_true, mentions_eq_true_iff]
  push Not
  rfl

theorem renameIdentifier_of_forall_renamedText {old new source : Text}
    (same : ∀ segment ∈ segments source,
      Segment.renamedText old new segment = segment.text) :
    renameIdentifier old new source = source := by
  calc renameIdentifier old new source
      = (segments source).flatMap Segment.text := by
        rw [renameIdentifier, List.flatMap_def, List.flatMap_def,
          List.map_congr_left same]
    _ = source := flatMap_text_segments source

/-- A renaming leaves a source as it is exactly when the source does not
mention the renamed identifier. -/
theorem renameIdentifier_eq_self_iff {old new source : Text}
    (differs : old ≠ new) :
    renameIdentifier old new source = source ↔
      mentions source old = false := by
  rw [mentions_eq_false_iff]
  constructor
  · intro unchanged segment member ⟨isIdentifier, isOld⟩
    have same : (segments source).flatMap (Segment.renamedText old new) =
        (segments source).flatMap Segment.text := by
      rw [flatMap_text_segments]
      exact unchanged
    have renamed : Segment.renamedText old new segment = segment.text := by
      rcases Nat.le_total old.length new.length with grows | shrinks
      · refine eq_of_flatMap_eq (fun piece _ => ?_) same segment member
        unfold Segment.renamedText
        split
        next isRenamed => rwa [isRenamed.2]
        next => exact Nat.le_refl _
      · refine (eq_of_flatMap_eq (fun piece _ => ?_) same.symm segment
          member).symm
        unfold Segment.renamedText
        split
        next isRenamed => rwa [isRenamed.2]
        next => exact Nat.le_refl _
    rw [Segment.renamedText, if_pos ⟨isIdentifier, isOld⟩, isOld] at renamed
    exact differs renamed.symm
  · intro notMentioned
    refine renameIdentifier_of_forall_renamedText fun segment member => ?_
    rw [Segment.renamedText, if_neg (notMentioned segment member)]

theorem renameIdentifier_of_not_mentions {old new source : Text}
    (notMentioned : mentions source old = false) :
    renameIdentifier old new source = source := by
  by_cases same : old = new
  · refine renameIdentifier_of_forall_renamedText fun segment _ => ?_
    unfold Segment.renamedText
    split
    next isOld => rw [isOld.2, same]
    next => rfl
  · exact (renameIdentifier_eq_self_iff same).mpr notMentioned

end GraphingCalculator
