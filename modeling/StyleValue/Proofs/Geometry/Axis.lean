import StyleValue.Proofs.Name.Keyword
import StyleValue.Proofs.Property.Layers

/-! Positions and the two axes. Of two coordinates, one is measured along each
axis. The center and a variable may stand on either, a quantity too, so only an
edge tells which axis is meant, and no two edges of a position are on the same
one. -/

namespace StyleValue

inductive Axis where
  | horizontal
  | vertical

namespace Axis

def other : Axis → Axis
  | .horizontal => .vertical
  | .vertical => .horizontal

/-- The keywords that belong to one axis only. -/
def edges : Axis → List String
  | .horizontal => ["left", "right"]
  | .vertical => ["top", "bottom"]

/-- The keywords that may be used on the axis. -/
def keywords (axis : Axis) : List String :=
  axis.edges ++ ["center"]

@[simp] theorem other_other (axis : Axis) : axis.other.other = axis := by
  cases axis <;> rfl

theorem eq_or_eq_other (axis found : Axis) : axis = found ∨ axis = found.other := by
  cases axis <;> cases found <;> simp [other]

theorem edges_apart_center (axis : Axis) :
    ∀ edge ∈ axis.edges, ∀ center ∈ ["center"], sameName edge center = false := by
  cases axis <;> decide +kernel

theorem keywords_apart_edges (axis : Axis) :
    ∀ keyword ∈ axis.other.keywords, ∀ edge ∈ axis.edges,
      sameName keyword edge = false := by
  cases axis <;> decide +kernel

theorem keywords_notNumbers (axis : Axis) :
    ∀ keyword ∈ axis.keywords, (Dimension.read? keyword).isSome = false := by
  cases axis <;> decide +kernel

theorem edges_notNumbers (axis : Axis) :
    ∀ edge ∈ axis.edges, (Dimension.read? edge).isSome = false :=
  fun edge member => axis.keywords_notNumbers edge (List.mem_append_left _ member)

end Axis

namespace Position

variable {first second node : Node} {axis : Axis}

/-- An edge, or a variable for it, is what may be used on the axis apart from
the center. -/
theorem isEdge_iff :
    node.isKeywordOrVariable axis.edges = true ↔
      node.isKeywordOrVariable axis.keywords = true ∧
        node.isKeyword ["center"] = false := by
  simp only [Node.isKeywordOrVariable_iff, Axis.keywords, Node.isKeyword_append,
    Bool.or_eq_true]
  constructor
  · intro isEdgeOrVariable
    rcases isEdgeOrVariable with isEdge | isVariable
    · exact ⟨.inl (.inl isEdge),
        Node.isKeyword_eq_false axis.edges_apart_center isEdge⟩
    · exact ⟨.inr isVariable, Node.isKeyword_of_isVariable isVariable _⟩
  · intro onAxis
    obtain ⟨(isEdge | isCenter) | isVariable, notCenter⟩ := onAxis
    · exact .inl isEdge
    · rw [notCenter] at isCenter
      contradiction
    · exact .inr isVariable

/-! Pairs, one for each axis. -/

theorem isKeywordPair_iff :
    isKeywordPair first second = true ↔
      ∃ axis : Axis, first.isKeywordOrVariable axis.keywords = true ∧
        second.isKeywordOrVariable axis.other.keywords = true := by
  rw [isKeywordPair, Bool.or_eq_true, Bool.and_eq_true, Bool.and_eq_true]
  constructor
  · intro pair
    rcases pair with across | along
    · exact ⟨.horizontal, across⟩
    · exact ⟨.vertical, along⟩
  · intro paired
    obtain ⟨axis, pair⟩ := paired
    cases axis with
    | horizontal => exact .inl pair
    | vertical => exact .inr pair

theorem isEdgePair_iff :
    isEdgePair first second = true ↔
      ∃ axis : Axis, first.isKeywordOrVariable axis.edges = true ∧
        second.isKeywordOrVariable axis.other.edges = true := by
  simp only [isEdgePair, Bool.and_eq_true, Bool.or_eq_true, Bool.not_eq_true']
  constructor
  · intro pair
    obtain ⟨⟨isFirst, isSecond⟩ | ⟨isFirst, isSecond⟩, notCenter⟩ := pair
    · exact ⟨.horizontal, isFirst, isEdge_iff.mpr ⟨isSecond, notCenter⟩⟩
    · exact ⟨.vertical, isFirst, isEdge_iff.mpr ⟨isSecond, notCenter⟩⟩
  · intro paired
    obtain ⟨axis, isFirst, isEdge⟩ := paired
    obtain ⟨isSecond, notCenter⟩ := isEdge_iff.mp isEdge
    cases axis with
    | horizontal => exact ⟨.inl ⟨isFirst, isSecond⟩, notCenter⟩
    | vertical => exact ⟨.inr ⟨isFirst, isSecond⟩, notCenter⟩

/-- A pair with one member for each axis may be turned around. -/
theorem exists_axis_swap {test : Axis → Node → Bool}
    (paired : ∃ axis : Axis,
      test axis first = true ∧ test axis.other second = true) :
    ∃ axis : Axis, test axis second = true ∧ test axis.other first = true := by
  obtain ⟨axis, isFirst, isSecond⟩ := paired
  refine ⟨axis.other, isSecond, ?_⟩
  rw [axis.other_other]
  exact isFirst

theorem isKeywordPair_comm (first second : Node) :
    isKeywordPair first second = isKeywordPair second first := by
  rw [Bool.eq_iff_iff, isKeywordPair_iff, isKeywordPair_iff]
  exact ⟨exists_axis_swap, exists_axis_swap⟩

theorem isEdgePair_comm (first second : Node) :
    isEdgePair first second = isEdgePair second first := by
  rw [Bool.eq_iff_iff, isEdgePair_iff, isEdgePair_iff]
  exact ⟨exists_axis_swap, exists_axis_swap⟩

/-- Without quantities a pair of coordinates is one of keywords. -/
theorem isKeywordPair_or_isCoordinatePair
    (notQuantity : first.isLengthPercentage = false)
    (notQuantity' : second.isLengthPercentage = false) :
    (isKeywordPair first second || isCoordinatePair first second) =
      isKeywordPair first second := by
  rw [isCoordinatePair, notQuantity, notQuantity', Bool.or_false, Bool.or_false,
    isKeywordPair, Bool.or_right_comm, Bool.or_self]

/-! Edges of one axis. -/

/-- A coordinate along the axis. -/
def Measures (axis : Axis) (node : Node) : Prop :=
  node.isKeywordOrVariable axis.keywords = true ∨
    node.isLengthPercentage = true

theorem Measures.isKeyword_edges (measures : Measures axis.other node)
    (notVariable : node.isVariable = false) :
    node.isKeyword axis.edges = false := by
  rcases measures with onAxis | isQuantity
  · rw [Node.isKeywordOrVariable_iff, notVariable] at onAxis
    exact Node.isKeyword_eq_false axis.keywords_apart_edges
      (onAxis.resolve_right Bool.false_ne_true)
  · exact Node.isKeyword_of_isLengthPercentage axis.edges_notNumbers isQuantity

theorem not_measures_of_isEdge (axis : Axis)
    (isEdge : node.isKeyword axis.edges = true) : ¬ Measures axis.other node := by
  intro measures
  rw [measures.isKeyword_edges (Node.isVariable_of_isKeyword isEdge)] at isEdge
  contradiction

theorem isCoordinatePair_iff :
    isCoordinatePair first second = true ↔
      Measures .horizontal first ∧ Measures .vertical second := by
  rw [isCoordinatePair, Bool.and_eq_true, Bool.or_eq_true, Bool.or_eq_true]
  rfl

/-- One coordinate along each axis. -/
def ArePaired (first second : Node) : Prop :=
  ∃ axis : Axis, Measures axis first ∧ Measures axis.other second

theorem arePaired_of_isKeywordPair (pair : isKeywordPair first second = true) :
    ArePaired first second := by
  obtain ⟨axis, isFirst, isSecond⟩ := isKeywordPair_iff.mp pair
  exact ⟨axis, .inl isFirst, .inl isSecond⟩

theorem arePaired_of_isEdgePair (pair : isEdgePair first second = true) :
    ArePaired first second := by
  obtain ⟨axis, isFirst, isSecond⟩ := isEdgePair_iff.mp pair
  exact ⟨axis, .inl (isEdge_iff.mp isFirst).1, .inl (isEdge_iff.mp isSecond).1⟩

theorem arePaired_of_isCoordinatePair
    (pair : isCoordinatePair first second = true) : ArePaired first second :=
  ⟨.horizontal, isCoordinatePair_iff.mp pair⟩

theorem ArePaired.edges_apart (paired : ArePaired first second)
    (notVariable : first.isVariable = false)
    (notVariable' : second.isVariable = false) (axis : Axis) :
    first.isKeyword axis.edges = false ∨
      second.isKeyword axis.edges = false := by
  obtain ⟨found, isFirst, isSecond⟩ := paired
  rcases axis.eq_or_eq_other found with rfl | rfl
  · exact .inr (isSecond.isKeyword_edges notVariable')
  · left
    rw [← found.other_other] at isFirst
    exact isFirst.isKeyword_edges notVariable

theorem isKeyword_of_isOffset (passed : isOffset node = true)
    (notVariable : node.isVariable = false) (axis : Axis) :
    node.isKeyword axis.edges = false := by
  rw [isOffset, notVariable, Bool.or_false] at passed
  exact Node.isKeyword_of_isLengthPercentage axis.edges_notNumbers passed

end Position

open Position

/-! Positions. -/

theorem countP_pair_le_one {test : Node → Bool} {first second : Node}
    (apart : test first = false ∨ test second = false) :
    [first, second].countP test ≤ 1 := by
  rcases apart with isFirst | isSecond
  · rw [List.countP_cons_of_neg (by simp [isFirst])]
    exact List.countP_le_length
  · rw [List.countP_cons, List.countP_singleton, isSecond]
    cases test first <;> decide

theorem countP_edges_le_one {group : List Node} (axis : Axis) :
    isPosition group = true → (∀ node ∈ group, node.isVariable = false) →
      group.countP (Node.isKeyword axis.edges) ≤ 1 := by
  fun_cases isPosition group with
  | case1 only => exact fun _ _ => List.countP_le_length
  | case2 x gap y =>
      intro passed noVariable
      rw [Bool.and_eq_true, Bool.or_eq_true] at passed
      obtain ⟨isSpace, pair⟩ := passed
      have paired :=
        pair.elim arePaired_of_isKeywordPair arePaired_of_isCoordinatePair
      have apart := paired.edges_apart (noVariable x (by simp))
        (noVariable y (by simp)) axis
      have counted : [x, gap, y].countP (Node.isKeyword axis.edges) =
          [x, y].countP (Node.isKeyword axis.edges) := by
        simp [List.countP_cons, Node.isKeyword_of_isSpace isSpace]
      rw [counted]
      exact countP_pair_le_one apart
  | case3 first gap offset gap' second gap'' offset' =>
      intro passed noVariable
      simp only [Bool.and_eq_true] at passed
      obtain ⟨⟨⟨⟨⟨isSpace, isSpace'⟩, isSpace''⟩, pair⟩, isOffset⟩, isOffset'⟩ :=
        passed
      have apart := (arePaired_of_isEdgePair pair).edges_apart
        (noVariable first (by simp)) (noVariable second (by simp)) axis
      have isCounted :
          [first, gap, offset, gap', second, gap'', offset'].countP
              (Node.isKeyword axis.edges) =
            [first, second].countP (Node.isKeyword axis.edges) := by
        simp [List.countP_cons, Node.isKeyword_of_isSpace isSpace,
          Node.isKeyword_of_isSpace isSpace', Node.isKeyword_of_isSpace isSpace'',
          isKeyword_of_isOffset isOffset (noVariable offset (by simp)),
          isKeyword_of_isOffset isOffset' (noVariable offset' (by simp))]
      rw [isCounted]
      exact countP_pair_le_one apart
  | case4 =>
      intro passed
      contradiction

theorem isPosition_pair_comm {x y : Node} (gap : Node)
    (notQuantity : x.isLengthPercentage = false)
    (notQuantity' : y.isLengthPercentage = false) :
    isPosition [x, gap, y] = isPosition [y, gap, x] := by
  rw [isPosition, isPosition,
    isKeywordPair_or_isCoordinatePair notQuantity notQuantity',
    isKeywordPair_or_isCoordinatePair notQuantity' notQuantity,
    isKeywordPair_comm]

theorem isPosition_edges_comm (first gap offset gap' second gap'' offset' : Node) :
    isPosition [first, gap, offset, gap', second, gap'', offset'] =
      isPosition [second, gap, offset', gap', first, gap'', offset] := by
  rw [isPosition, isPosition, isEdgePair_comm second first, Bool.and_right_comm]

/-- A quantity beside an edge is measured along the other axis, and the
horizontal coordinate comes first. -/
theorem isPosition_misplaced {x y : Node} (gap : Node)
    (misplaced : x.isKeyword ["top", "bottom"] = true ∧
        y.isLengthPercentage = true ∨
      x.isLengthPercentage = true ∧ y.isKeyword ["left", "right"] = true) :
    isPosition [x, gap, y] = false := by
  rw [Bool.eq_false_iff]
  intro passed
  rw [isPosition, Bool.and_eq_true, Bool.or_eq_true] at passed
  obtain ⟨-, pair | pair⟩ := passed
  · obtain ⟨axis, isFirst, isSecond⟩ := isKeywordPair_iff.mp pair
    rcases misplaced with ⟨-, isQuantity⟩ | ⟨isQuantity, -⟩
    · rw [Node.isKeywordOrVariable_of_isLengthPercentage
        axis.other.keywords_notNumbers isQuantity] at isSecond
      contradiction
    · rw [Node.isKeywordOrVariable_of_isLengthPercentage
        axis.keywords_notNumbers isQuantity] at isFirst
      contradiction
  · obtain ⟨isFirst, isSecond⟩ := isCoordinatePair_iff.mp pair
    rcases misplaced with ⟨isEdge, -⟩ | ⟨-, isEdge⟩
    · exact not_measures_of_isEdge .vertical isEdge isFirst
    · exact not_measures_of_isEdge .horizontal isEdge isSecond

theorem isCenter_eq_false_of_isPosition
    {first gap offset gap' second gap'' offset' : Node}
    (passed :
      isPosition [first, gap, offset, gap', second, gap'', offset'] = true) :
    first.isKeyword ["center"] = false ∧ second.isKeyword ["center"] = false := by
  simp only [isPosition, Bool.and_eq_true] at passed
  obtain ⟨⟨⟨-, pair⟩, -⟩, -⟩ := passed
  obtain ⟨axis, isFirst, isSecond⟩ := isEdgePair_iff.mp pair
  exact ⟨(isEdge_iff.mp isFirst).2, (isEdge_iff.mp isSecond).2⟩

/-- A position is a list of positions that has no comma. -/
theorem isPosition_iff_isPositionList (group : List Node) :
    isPosition group = true ↔
      (∀ node ∈ group, node.isComma = false) ∧ isPositionList group = true := by
  rw [isPositionList_eq]
  constructor
  · intro passed
    have layer := isLayer_of_isPosition passed
    refine ⟨fun node member => ?_, ?_⟩
    · exact Node.isDividerOf_eq_false (layer.undivided node member) .comma
    · rw [layer.commaGroups_eq, List.all_cons, passed]
      rfl
  · intro listed
    obtain ⟨noComma, passed⟩ := listed
    rw [commaGroups, groupsBy_of_forall noComma] at passed
    simpa using passed

/-- Positions respect the axes. They are the lists of positions without a comma;
the two edges with their offsets, and two coordinates that are no quantities, may
trade places; without variables no two edges are on the same axis; a quantity
does not take the place of the other coordinate; and nothing is measured from the
center. -/
theorem isPosition_axes (group : List Node) :
    ((Grammar.whole isPosition).check group = .accept ↔
      (∀ node ∈ group, node.isComma = false) ∧
        (Grammar.whole isPositionList).check group = .accept) ∧
    (∀ first gap offset gap' second gap'' offset' : Node,
      isPosition [first, gap, offset, gap', second, gap'', offset'] =
        isPosition [second, gap, offset', gap', first, gap'', offset]) ∧
    (∀ x gap y : Node,
      x.isLengthPercentage = false → y.isLengthPercentage = false →
        isPosition [x, gap, y] = isPosition [y, gap, x]) ∧
    (isPosition group = true → (∀ node ∈ group, node.isVariable = false) →
      group.countP (Node.isKeyword ["left", "right"]) ≤ 1 ∧
        group.countP (Node.isKeyword ["top", "bottom"]) ≤ 1) ∧
    (∀ x gap y : Node,
      x.isKeyword ["top", "bottom"] = true ∧ y.isLengthPercentage = true ∨
          x.isLengthPercentage = true ∧ y.isKeyword ["left", "right"] = true →
        isPosition [x, gap, y] = false) ∧
    ∀ first gap offset gap' second gap'' offset' : Node,
      isPosition [first, gap, offset, gap', second, gap'', offset'] = true →
        first.isKeyword ["center"] = false ∧
          second.isKeyword ["center"] = false := by
  refine ⟨?_, isPosition_edges_comm, ?_, ?_, ?_, ?_⟩
  · simp only [Grammar.check_whole_eq_accept_iff]
    exact isPosition_iff_isPositionList group
  · intro x gap y notQuantity notQuantity'
    exact isPosition_pair_comm gap notQuantity notQuantity'
  · intro passed noVariable
    exact ⟨countP_edges_le_one .horizontal passed noVariable,
      countP_edges_le_one .vertical passed noVariable⟩
  · intro x gap y misplaced
    exact isPosition_misplaced gap misplaced
  · intro first gap offset gap' second gap'' offset' passed
    exact isCenter_eq_false_of_isPosition passed

theorem isPosition_axes_corner :
    isPosition [.word "left", .space " ", .word "10px", .space " ", .word "top",
        .space " ", .word "20%"] = true ∧
      [Node.word "left", .space " ", .word "10px", .space " ", .word "top",
        .space " ", .word "20%"].countP (Node.isKeyword ["left", "right"]) ≤ 1 ∧
      (Node.word "top").isKeyword ["center"] = false ∧
      isPosition [.word "center", .space " ", .word "left"] =
        isPosition [.word "left", .space " ", .word "center"] ∧
      isPosition [.word "top", .space " ", .word "10px"] = false := by
  have passed : isPosition [.word "left", .space " ", .word "10px", .space " ",
      .word "top", .space " ", .word "20%"] = true := by
    decide +kernel
  obtain ⟨-, -, pairs, counts, misplaced, centers⟩ := isPosition_axes
    [.word "left", .space " ", .word "10px", .space " ", .word "top", .space " ",
      .word "20%"]
  refine ⟨passed, (counts passed (by decide +kernel)).1,
    (centers _ _ _ _ _ _ _ passed).2, ?_, ?_⟩
  · exact pairs _ _ _ (by decide +kernel) (by decide +kernel)
  · exact misplaced _ _ _ (.inl (by decide +kernel))

end StyleValue
