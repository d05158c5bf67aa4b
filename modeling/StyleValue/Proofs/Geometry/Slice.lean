import StyleValue.Proofs.Geometry.Placement

/-! Placements read by places. The first `at` at an even place is looked up, and
the sequence is sliced around it. A slice past the end of the sequence, or one
that ends before it starts, is no slice, and a place past the end or before the
start holds no node. Nothing of that comes about, and the answers are those of
the reading that goes along the sequence. -/

namespace StyleValue

namespace Slice

/-- The nodes from one place up to another. -/
def slice? (nodes : List Node) (start stop : Nat) : Option (List Node) :=
  if start ≤ stop ∧ stop ≤ nodes.length then
    some ((nodes.take stop).drop start)
  else none

/-- The first even place that holds an `at`. -/
def firstMark? (nodes : List Node) : Option Nat :=
  (nodes.zipIdx.find? fun entry =>
    entry.2 % 2 == 0 && entry.1.isKeyword ["at"]).map Prod.snd

/-- What may follow an `at`. -/
def isClause : List Node → Bool
  | [] => false
  | gap :: position => gap.isSpace && isPosition position

/-- Whether a place other than the first has a gap before it. -/
def isApart? (nodes : List Node) : (place : Nat) → Option Bool
  | 0 => some true
  | previous + 1 => nodes[previous]?.map Node.isSpace

def isRadii (radii : Nat) (extent : List Node) : Bool :=
  extent.isEmpty ||
    (isListOf Shape.isRadius .space extent && extent.length == radii * 2 - 1)

/-- The gap before the `at` is looked at after the slice. -/
def isRound? (radii : Nat) (args : List Node) : Option Bool :=
  match firstMark? args with
  | none => some (isRadii radii args)
  | some place => do
      let clause ← slice? args (place + 1) args.length
      if isClause clause then
        let extent ← slice? args 0 (place - 1)
        let apart ← isApart? args place
        return apart && isRadii radii extent
      else return false

def isRadial (isPlaced : Bool) (extent : List Node) : Bool :=
  if extent.isEmpty then isPlaced
  else (spacedItems? extent).any Gradient.isRadialSize

/-- The gap before the `at` is looked at before the slice. -/
def isRadialDefinition? (group : List Node) : Option Bool :=
  match firstMark? group with
  | none => some (isRadial false group)
  | some place => do
      let clause ← slice? group (place + 1) group.length
      if isClause clause then
        match place with
        | 0 => return isRadial true (← slice? group 0 0)
        | previous + 1 =>
            let gap ← group[previous]?
            if gap.isSpace then
              return isRadial true (← slice? group 0 previous)
            else return false
      else return false

/-! Where the sequence is sliced. -/

variable {nodes before after : List Node}

theorem find?_zipIdx_eq (nodes : List Node) (start : Nat)
    (even : start % 2 = 0) :
    ((nodes.zipIdx start).find? fun entry =>
        entry.2 % 2 == 0 && entry.1.isKeyword ["at"]).map Prod.snd =
      (Placement.cutAt? nodes).map fun cut => start + cut.1.length := by
  fun_induction Placement.cutAt? nodes generalizing start with
  | case1 => rfl
  | case2 node rest isMark => simp [even, isMark]
  | case3 node notMark => simp [even, notMark]
  | case4 node notMark gap rest ih =>
      have further := ih (start + 1 + 1) (by omega)
      have odd : (start + 1) % 2 = 1 := by omega
      rw [List.zipIdx_cons, List.zipIdx_cons,
        List.find?_cons_of_neg (by simp [notMark]),
        List.find?_cons_of_neg (by simp [odd]), further, Option.map_map]
      congr 1
      funext cut
      simp only [Function.comp_apply, List.length_cons]
      omega

theorem firstMark?_eq (nodes : List Node) :
    firstMark? nodes =
      (Placement.cutAt? nodes).map fun cut => cut.1.length := by
  have found := find?_zipIdx_eq nodes 0 rfl
  simp only [Nat.zero_add] at found
  exact found

/-- What the places around the first `at` hold; nothing is out of range. -/
structure IsSliced (nodes before after : List Node) : Prop where
  mark : firstMark? nodes = some before.length
  clause : slice? nodes (before.length + 1) nodes.length = some after
  extent : slice? nodes 0 (before.length - 1) = some before.dropLast
  apart : isApart? nodes before.length =
    some (before.getLast?.all Node.isSpace)

theorem isSliced_of_cutAt?
    (cut : Placement.cutAt? nodes = some (before, after)) :
    IsSliced nodes before after := by
  obtain ⟨mark, rfl, -⟩ := Placement.exists_of_cutAt? cut
  have length_eq : (before ++ mark :: after).length =
      before.length + 1 + after.length := by
    rw [List.length_append, List.length_cons]
    omega
  constructor
  · rw [firstMark?_eq, cut]
    rfl
  · rw [slice?, if_pos ⟨by omega, Nat.le_refl _⟩, List.take_length,
      List.drop_length_add_append]
    rfl
  · rw [slice?, if_pos ⟨Nat.zero_le _, by omega⟩, List.drop_zero,
      List.take_append_of_le_length (Nat.sub_le _ _), List.dropLast_eq_take]
  · rcases before.eq_nil_or_concat with rfl | ⟨extent, gap, rfl⟩
    · rfl
    · simp [isApart?]

/-! Both readings. -/

theorem any_read?_of_cutAt? (cut : Placement.cutAt? nodes = some (before, after))
    (test : Placement → Bool) :
    (Placement.read? nodes).any test =
      (isClause after && (before.getLast?.all Node.isSpace &&
        test ⟨before.dropLast, true⟩)) := by
  cases after with
  | nil => simp [Placement.read?, cut, isClause]
  | cons gap position =>
      simp only [Placement.read?, cut, isClause]
      rw [← Bool.and_assoc]
      split
      next passed => rw [passed, Option.any_some, Bool.true_and]
      next failed =>
        rw [Bool.eq_false_iff.mpr failed, Option.any_none, Bool.false_and]

theorem isRadii_eq (radii : Nat) (extent : List Node) :
    isRadii radii extent =
      (extent.isEmpty ||
        isTupleOf .space (List.replicate radii Shape.isRadius) extent) := by
  rw [isTupleOf_replicate]
  cases extent with
  | nil => rfl
  | cons node rest =>
      have sameLength : (rest.length + 1 == radii * 2 - 1) =
          (rest.length + 1 + 1 == 2 * radii) := by
        rw [Bool.eq_iff_iff, beq_iff_eq, beq_iff_eq]
        omega
      rw [isRadii, List.length_cons, sameLength]

theorem isRound?_eq (radii : Nat) (args : List Node) :
    isRound? radii args = some (Shape.isRound radii args) := by
  rw [isRound?, Shape.isRound]
  cases cut : Placement.cutAt? args with
  | none => simp [firstMark?_eq, Placement.read?, cut, isRadii_eq]
  | some sides =>
      have sliced := isSliced_of_cutAt? cut
      rw [any_read?_of_cutAt? cut, ← isRadii_eq]
      simp only [sliced.mark, sliced.clause, sliced.extent, sliced.apart,
        Option.bind_eq_bind, Option.bind_some]
      cases isClause sides.2 with
      | true => rfl
      | false => rfl

theorem isRadialDefinition?_eq (group : List Node) :
    isRadialDefinition? group = some (Gradient.isRadialDefinition group) := by
  rw [isRadialDefinition?, Gradient.isRadialDefinition]
  cases cut : Placement.cutAt? group with
  | none => simp [firstMark?_eq, Placement.read?, cut, isRadial]
  | some sides =>
      obtain ⟨mark, clause, extent, apart⟩ := isSliced_of_cutAt? cut
      rw [any_read?_of_cutAt? cut]
      simp only [mark, clause, Option.bind_eq_bind, Option.bind_some]
      cases isClause sides.2 with
      | false => rfl
      | true =>
          generalize sides.1.length = place at extent apart
          cases place with
          | zero =>
              simp only [if_true, extent, ← Option.some.inj apart]
              rfl
          | succ previous =>
              obtain ⟨gap, isGap, apart⟩ := Option.map_eq_some_iff.mp apart
              rw [Nat.add_sub_cancel] at extent
              simp only [if_true, isGap, Option.bind_some, ← apart, extent]
              cases gap.isSpace with
              | true => rfl
              | false => rfl

end Slice

/-- A clause `at <position>` is read where it stands, after an extent or without
one, in round shapes and in radial definitions. Reading by places gives the same
answers, so all its slices are within the sequence. -/
theorem placement_clauses (radii : Nat) (nodes : List Node) :
    (Shape.isRound radii nodes = true ↔
      nodes = [] ∨ IsPlaced (Shape.IsRadii radii) nodes) ∧
    (Gradient.isRadialDefinition nodes = true ↔
      IsPlaced Gradient.IsRadialExtent nodes) ∧
    Slice.isRound? radii nodes = some (Shape.isRound radii nodes) ∧
    Slice.isRadialDefinition? nodes =
      some (Gradient.isRadialDefinition nodes) :=
  ⟨Shape.isRound_iff, Gradient.isRadialDefinition_iff,
    Slice.isRound?_eq radii nodes, Slice.isRadialDefinition?_eq nodes⟩

end StyleValue
