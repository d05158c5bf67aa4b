import StyleValue.Proofs.Geometry.Placement

/-! Gradients are read in one way only. A first group that reads as a definition
is taken for one, and that loses nothing: a definition starts with a keyword or a
quantity, a color stop with a color, and no item is both. -/

namespace StyleValue

namespace Gradient

variable {group : List Node}

/-! Color stops. -/

/-- A color, and the place of it or none. -/
inductive IsColorStop : List Node → Prop
  | color {color : Node} (isColor : color.isColor = true) :
      IsColorStop [color]
  | placed {color gap place : Node} (isColor : color.isColor = true)
      (isSpace : gap.isSpace = true)
      (isPlace : place.isLengthPercentage = true) :
      IsColorStop [color, gap, place]

theorem isColorStop_iff : isColorStop group = true ↔ IsColorStop group := by
  constructor
  · fun_cases isColorStop group with
    | case1 color => exact .color
    | case2 color gap place =>
        intro passed
        simp only [Bool.and_eq_true] at passed
        obtain ⟨⟨isColor, isSpace⟩, isPlace⟩ := passed
        exact .placed isColor isSpace isPlace
    | case3 =>
        intro passed
        contradiction
  · intro isStop
    cases isStop with
    | color isColor => exact isColor
    | placed isColor isSpace isPlace =>
        simp [isColorStop, isColor, isSpace, isPlace]

/-! Definitions. -/

/-- An angle, or `to` with a side or a corner. -/
inductive IsLinearDefinition : List Node → Prop
  | angle {angle : Node} (isAngle : angle.isAngle = true) :
      IsLinearDefinition [angle]
  | side {mark side : Node} {nodes : List Node}
      (spaced : Spaced [mark, side] nodes) (isMark : mark.isKeyword ["to"] = true)
      (isSide : side.isKeyword ["left", "right", "top", "bottom"] = true) :
      IsLinearDefinition nodes
  | corner {mark first second : Node} {nodes : List Node}
      (spaced : Spaced [mark, first, second] nodes)
      (isMark : mark.isKeyword ["to"] = true)
      (isCorner :
        first.isKeyword ["left", "right"] = true ∧
            second.isKeyword ["top", "bottom"] = true ∨
          first.isKeyword ["top", "bottom"] = true ∧
            second.isKeyword ["left", "right"] = true) :
      IsLinearDefinition nodes

theorem isLinearDefinition_of_isDirection {values : List Node}
    (spaced : Spaced values group) :
    isDirection values = true → IsLinearDefinition group := by
  fun_cases isDirection values with
  | case1 mark side =>
      intro passed
      obtain ⟨isMark, isSide⟩ := Bool.and_eq_true_iff.mp passed
      exact .side spaced isMark isSide
  | case2 mark first second =>
      intro passed
      simp only [Bool.and_eq_true, Bool.or_eq_true] at passed
      obtain ⟨isMark, isCorner⟩ := passed
      exact .corner spaced isMark isCorner
  | case3 =>
      intro passed
      contradiction

theorem isLinearDefinition_of_spaced {first second : Node} {more : List Node}
    (spaced : Spaced (first :: second :: more) group) :
    isLinearDefinition group = isDirection (first :: second :: more) := by
  have found := spacedItems?_eq_some_iff.mpr spaced
  cases spaced with
  | more =>
      rw [isLinearDefinition, found]
      · rfl
      · simp

theorem isLinearDefinition_iff :
    isLinearDefinition group = true ↔ IsLinearDefinition group := by
  constructor
  · fun_cases isLinearDefinition group with
    | case1 angle => exact .angle
    | case2 =>
        intro passed
        obtain ⟨values, spaced, isDirection⟩ := any_spacedItems?_iff.mp passed
        exact isLinearDefinition_of_isDirection spaced isDirection
  · intro definition
    cases definition with
    | angle isAngle => exact isAngle
    | side spaced isMark isSide =>
        rw [isLinearDefinition_of_spaced spaced]
        simp [isDirection, isMark, isSide]
    | corner spaced isMark isCorner =>
        rw [isLinearDefinition_of_spaced spaced]
        simpa [isDirection, isMark, horizontalSides, verticalSides] using isCorner

/-! A definition does not start with a color. -/

theorem isColor_head_of_isLinearDefinition
    (definition : IsLinearDefinition group) :
    group.head?.any Node.isColor = false := by
  have mark : ∀ {node : Node}, node.isKeyword ["to"] = true →
      node.isColor = false :=
    fun isMark => (Node.not_isKeyword (by decide +kernel) isMark).2.1
  cases definition with
  | angle isAngle => exact Node.isColor_of_isAngle isAngle
  | side spaced isMark =>
      cases spaced
      exact mark isMark
  | corner spaced isMark =>
      cases spaced
      exact mark isMark

theorem isColor_of_isRadialItem {node : Node} (isItem : IsRadialItem node) :
    node.isColor = false := by
  rcases isItem with isKeyword | isQuantity
  · exact (Node.not_isKeyword (by decide +kernel) isKeyword).2.1
  · exact Node.isColor_of_isLengthPercentage isQuantity

theorem IsRadialExtent.isColor_head {extent : List Node}
    (isExtent : IsRadialExtent extent) (rest : List Node) :
    (extent ++ rest).head?.any Node.isColor = false := by
  obtain ⟨values, spaced, isSize⟩ := isExtent
  have items := isRadialItem_of_isRadialSize isSize
  cases spaced with
  | one value => exact isColor_of_isRadialItem (items value List.mem_cons_self)
  | more value => exact isColor_of_isRadialItem (items value List.mem_cons_self)

theorem isColor_head_of_isRadialDefinition
    (definition : IsPlaced IsRadialExtent group) :
    group.head?.any Node.isColor = false := by
  cases definition with
  | extent isExtent => simpa using isExtent.isColor_head []
  | position isMark =>
      exact (Node.not_isKeyword (by decide +kernel) isMark).2.1
  | both isExtent => exact isExtent.isColor_head _

theorem IsColorStop.isColor_head (isStop : IsColorStop group) :
    group.head?.any Node.isColor = true := by
  cases isStop with
  | color isColor => exact isColor
  | placed isColor => exact isColor

theorem IsColorStop.not_definition (isStop : IsColorStop group) :
    ¬ IsLinearDefinition group ∧ ¬ IsPlaced IsRadialExtent group := by
  have isColor := isStop.isColor_head
  constructor
  · intro definition
    rw [isColor_head_of_isLinearDefinition definition] at isColor
    contradiction
  · intro definition
    rw [isColor_head_of_isRadialDefinition definition] at isColor
    contradiction

/-! Readings. -/

/-- A reading of the groups: two color stops at least, after a definition or
none. -/
inductive IsRead (IsDefinition : List Node → Prop) : List (List Node) → Prop
  | stops {stops : List (List Node)} (enough : 2 ≤ stops.length)
      (areStops : ∀ stop ∈ stops, IsColorStop stop) :
      IsRead IsDefinition stops
  | defined {definition : List Node} {stops : List (List Node)}
      (isDefinition : IsDefinition definition) (enough : 2 ≤ stops.length)
      (areStops : ∀ stop ∈ stops, IsColorStop stop) :
      IsRead IsDefinition (definition :: stops)

/-- The reading that is tried is the only one there could be. -/
theorem hasColorStops_iff {isDefinition : List Node → Bool}
    {IsDefinition : List Node → Prop}
    (decides : ∀ group, isDefinition group = true ↔ IsDefinition group)
    (apart : ∀ group, IsColorStop group → ¬ IsDefinition group)
    {args : List Node} :
    hasColorStops isDefinition args = true ↔
      IsRead IsDefinition (commaGroups args) := by
  obtain ⟨first, rest, isCons⟩ :=
    List.exists_cons_of_ne_nil (groupsBy_ne_nil Node.isComma args)
  have areStops_iff : ∀ stops : List (List Node),
      stops.all isColorStop = true ↔ ∀ stop ∈ stops, IsColorStop stop := by
    intro stops
    simp only [List.all_eq_true, isColorStop_iff]
  simp only [hasColorStops, commaGroups, isCons, List.head?_cons,
    Option.any_some, List.tail_cons, Bool.and_eq_true, decide_eq_true_eq,
    areStops_iff]
  split
  next passed =>
    have definition := (decides first).mp passed
    constructor
    · intro accepted
      exact .defined definition accepted.1 accepted.2
    · intro isRead
      cases isRead with
      | stops enough areStops =>
          exact absurd definition (apart first (areStops first List.mem_cons_self))
      | defined _ enough areStops => exact ⟨enough, areStops⟩
  next failed =>
    constructor
    · intro accepted
      exact .stops accepted.1 accepted.2
    · intro isRead
      cases isRead with
      | stops enough areStops => exact ⟨enough, areStops⟩
      | defined isDefinition => exact absurd ((decides first).mpr isDefinition) failed

/-- A gradient is a call by one of its names whose groups have a reading. No
group could be a color stop in one reading and the definition in another. -/
theorem isGradient_iff_isRead (node : Node) :
    (node.isGradient = true ↔
      ∃ name before args after closed,
        node = .call name before args after closed ∧
          ((∃ known ∈ ["linear-gradient", "repeating-linear-gradient"],
              sameName name known = true) ∧
            IsRead IsLinearDefinition (commaGroups args) ∨
          (∃ known ∈ ["radial-gradient", "repeating-radial-gradient"],
              sameName name known = true) ∧
            IsRead (IsPlaced IsRadialExtent) (commaGroups args))) ∧
    ∀ group, ¬ (IsColorStop group ∧
      (IsLinearDefinition group ∨ IsPlaced IsRadialExtent group)) := by
  have linear : ∀ args, hasColorStops isLinearDefinition args = true ↔
      IsRead IsLinearDefinition (commaGroups args) := fun _ =>
    hasColorStops_iff (fun _ => isLinearDefinition_iff)
      (fun _ isStop => isStop.not_definition.1)
  have radial : ∀ args, hasColorStops isRadialDefinition args = true ↔
      IsRead (IsPlaced IsRadialExtent) (commaGroups args) := fun _ =>
    hasColorStops_iff (fun _ => isRadialDefinition_iff)
      (fun _ isStop => isStop.not_definition.2)
  refine ⟨?_, fun group both => both.2.elim both.1.not_definition.1
    both.1.not_definition.2⟩
  simp only [Node.isGradient, Bool.or_eq_true, Node.any_argsOf?_iff, linear,
    radial, ← exists_or, ← and_or_left]

end Gradient

end StyleValue
