import StyleValue.Geometry.Shape
import StyleValue.Geometry.Transform
import StyleValue.Proofs.Quantity.Likeness
import StyleValue.Quantity.Item

/-! Positions, shapes, tracks and transforms look at the length of a sequence
and test its items one by one. -/

namespace StyleValue

variable {like : Likeness}

/-! Positions. -/

namespace Position

open Node

theorem respects_isOffset : Respects like isOffset :=
  respects_isLengthPercentage.or respects_isVariable

variable {first laterFirst second laterSecond : Node}
  (firstAlike : first.Alike like laterFirst)
  (secondAlike : second.Alike like laterSecond)

include firstAlike secondAlike

theorem isKeywordPair_eq :
    isKeywordPair laterFirst laterSecond = isKeywordPair first second := by
  simp only [isKeywordPair, respects_isKeywordOrVariable _ firstAlike,
    respects_isKeywordOrVariable _ secondAlike]

theorem isCoordinatePair_eq :
    isCoordinatePair laterFirst laterSecond =
      isCoordinatePair first second := by
  simp only [isCoordinatePair, respects_isKeywordOrVariable _ firstAlike,
    respects_isKeywordOrVariable _ secondAlike,
    respects_isLengthPercentage firstAlike,
    respects_isLengthPercentage secondAlike]

theorem isEdgePair_eq :
    isEdgePair laterFirst laterSecond = isEdgePair first second := by
  simp only [isEdgePair, respects_isKeywordOrVariable _ firstAlike,
    respects_isKeywordOrVariable _ secondAlike,
    respects_isKeyword _ secondAlike]

end Position

open Node

theorem respectsAll_isPosition : RespectsAll like isPosition := by
  intro nodes later alike
  obtain _ | ⟨first, _ | ⟨second, _ | ⟨third, _ | ⟨fourth, _ | ⟨fifth,
    _ | ⟨sixth, _ | ⟨seventh, _ | _⟩⟩⟩⟩⟩⟩⟩ := alike
  · rfl
  · simp only [isPosition, respects_isKeywordOrVariable _ first,
      respects_isLengthPercentage first]
  · rfl
  · simp only [isPosition, respects_isSpace second,
      Position.isKeywordPair_eq first third,
      Position.isCoordinatePair_eq first third]
  · rfl
  · rfl
  · rfl
  · simp only [isPosition, respects_isSpace second, respects_isSpace fourth,
      respects_isSpace sixth, Position.isEdgePair_eq first fifth,
      Position.respects_isOffset third, Position.respects_isOffset seventh]
  · rfl

theorem respectsAll_endsInDivider : RespectsAll like endsInDivider :=
  fun _ _ alike => any_getLast?_eq_of_forall₂ respects_isDivider alike

theorem respectsAll_undivided {accepts : List Node → Bool}
    (respects : RespectsAll like accepts) :
    RespectsAll like fun nodes =>
      !endsInDivider nodes && (commaGroups nodes).all accepts := by
  intro nodes later alike
  simp only [respectsAll_endsInDivider alike,
    respectsAll_allGroups respects alike]

theorem respectsAll_isPositionList : RespectsAll like isPositionList :=
  respectsAll_undivided respectsAll_isPosition

/-! Placements. -/

namespace Placement

structure Alike (like : Likeness) (placement later : Placement) : Prop where
  extent : AllAlike like placement.extent later.extent
  isPlaced_eq : later.isPlaced = placement.isPlaced

/-- The two sides of a cut. -/
def CutAlike (like : Likeness) (cut later : List Node × List Node) : Prop :=
  AllAlike like cut.1 later.1 ∧ AllAlike like cut.2 later.2

theorem cutAt?_alike :
    (nodes : List Node) → {later : List Node} → AllAlike like nodes later →
      Option.Rel (CutAlike like) (cutAt? nodes) (cutAt? later)
  | [], _, .nil => by
      rw [cutAt?]
      exact .none
  | [node], _, .cons itemAlike .nil => by
      rw [cutAt?, cutAt?, respects_isKeyword _ itemAlike]
      split
      · exact .some ⟨.nil, .nil⟩
      · exact .none
  | node :: gap :: rest, _, .cons itemAlike (.cons gapAlike restAlike) => by
      have further := cutAt?_alike rest restAlike
      rw [cutAt?, cutAt?, respects_isKeyword _ itemAlike]
      split
      · exact .some ⟨.nil, .cons gapAlike restAlike⟩
      · generalize cutAt? rest = cut at further
        generalize cutAt? _ = laterCut at further
        cases further with
        | none => exact .none
        | some cutAlike =>
            exact .some ⟨.cons itemAlike (.cons gapAlike cutAlike.1),
              cutAlike.2⟩

theorem read?_alike {nodes later : List Node}
    (alike : AllAlike like nodes later) :
    Option.Rel (Alike like) (read? nodes) (read? later) := by
  have cuts := cutAt?_alike nodes alike
  rw [read?, read?]
  generalize cutAt? nodes = cut at cuts
  generalize cutAt? later = laterCut at cuts
  cases cuts with
  | none => exact .some ⟨alike, rfl⟩
  | @some cut laterCut cutAlike =>
      obtain ⟨before, after⟩ := cut
      obtain ⟨laterBefore, laterAfter⟩ := laterCut
      obtain ⟨beforeAlike, afterAlike⟩ := cutAlike
      cases afterAlike with
      | nil => exact .none
      | cons gapAlike positionAlike =>
          simp only [respects_isSpace gapAlike,
            respectsAll_isPosition positionAlike,
            all_getLast?_eq_of_forall₂ respects_isSpace beforeAlike]
          split
          · refine .some ⟨?_, rfl⟩
            simp only [List.dropLast_eq_take]
            rw [← List.Forall₂.length_eq beforeAlike]
            exact List.forall₂_take _ beforeAlike
          · exact .none

theorem respectsAll_anyRead {test : Placement → Bool}
    (respects : ∀ ⦃placement later : Placement⦄, placement.Alike like later →
      test later = test placement) :
    RespectsAll like fun nodes => (read? nodes).any test := by
  intro nodes later alike
  have readings := read?_alike alike
  simp only
  generalize read? nodes = placement at readings
  generalize read? later = laterPlacement at readings
  cases readings with
  | none => rfl
  | some placementAlike => exact respects placementAlike

end Placement

/-! Shapes. -/

namespace Shape

theorem respects_isRadius : Respects like isRadius :=
  respects_isLengthPercentage.or (respects_isKeyword _)

theorem respectsAll_isRound (radii : Nat) : RespectsAll like (isRound radii) := by
  apply Placement.respectsAll_anyRead
  intro placement later alike
  have radiiRespect : ∀ item ∈ List.replicate radii isRadius,
      Respects like item := by
    intro item member
    rw [List.eq_of_mem_replicate member]
    exact respects_isRadius
  rw [isEmpty_eq_of_forall₂ alike.extent,
    respectsAll_isTupleOf radiiRespect .space alike.extent]

theorem respectsAll_isVertex : RespectsAll like isVertex := by
  intro nodes later alike
  obtain _ | ⟨x, _ | ⟨gap, _ | ⟨y, _ | _⟩⟩⟩ := alike
  · rfl
  · rfl
  · rfl
  · simp only [isVertex, respects_isLengthPercentage x, respects_isSpace gap,
      respects_isLengthPercentage y]
  · rfl

theorem respectsAll_isFillRule : RespectsAll like isFillRule := by
  intro nodes later alike
  obtain _ | ⟨rule, _ | _⟩ := alike
  · rfl
  · exact respects_isKeyword _ rule
  · rfl

theorem respectsAll_isPolygon : RespectsAll like isPolygon := by
  intro args later alike
  have groups := alike.commaGroups
  rw [isPolygon, isPolygon]
  generalize commaGroups args = before at groups
  generalize commaGroups later = after at groups
  cases groups with
  | nil => rfl
  | cons first rest =>
      simp only [respectsAll_isFillRule first, respectsAll_isVertex first,
        all_eq_of_forall₂ respectsAll_isVertex rest,
        isEmpty_eq_of_forall₂ rest]

end Shape

namespace Node

@[simp] theorem respects_isBox : Respects like isBox :=
  respects_isKeyword _

@[simp] theorem respects_isGeometryBox : Respects like isGeometryBox :=
  (respects_isBox.or (respects_isKeyword _)).or (respects_isKeyword _)

theorem respects_isBasicShape : Respects like isBasicShape :=
  (((respects_anyArgs
    (respectsAll_isListOf respects_isLengthPercentage .space) _).or
    (respects_anyArgs (Shape.respectsAll_isRound 1) _)).or
    (respects_anyArgs (Shape.respectsAll_isRound 2) _)).or
    (respects_anyArgs Shape.respectsAll_isPolygon _)

@[simp] theorem respects_isClipSource : Respects like isClipSource :=
  (respects_isUrl.or respects_isBasicShape).or respects_isGeometryBox

/-! Tracks and transforms. -/

theorem respects_isBreadth : Respects like Track.isBreadth :=
  (respects_isKeyword _).or respects_isLengthPercentage

theorem respects_range : Respects like Track.range.fits := by
  apply Signature.respects_fits
  simp only [Track.range, List.forall_mem_cons]
  exact ⟨respects_isBreadth, respects_isBreadth.or respects_isFlex, nofun⟩

@[simp] theorem respects_isTrackSize : Respects like isTrackSize :=
  (respects_range.or respects_isFlex).or respects_isBreadth

@[simp] theorem respects_isTransformFunction :
    Respects like isTransformFunction := by
  refine (Signature.respects_anyFits ?_).or respects_isVariable
  simp [Transform.signatures, Transform.matrices, Transform.unary,
    Transform.paired, Transform.spatial]

end Node

end StyleValue
