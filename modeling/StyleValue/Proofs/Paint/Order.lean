import StyleValue.Effect.Shadow
import StyleValue.Geometry.Shape
import StyleValue.Proofs.Effect.Counts
import StyleValue.Proofs.Paint.Kinds

/-! The order in which kinds are tested. Shadows, filters, gradients and shapes
are read by chains of tests, one after the other; as no item, group or call
passes two tests of a chain, any other order reads the same. -/

namespace StyleValue

/-! The items of a shadow. -/

namespace ShadowParts

variable {style : ShadowStyle} {opensWithLength : Bool} {parts : ShadowParts}
  {node : Node}

/-- What a further item of each kind makes of the parts. -/
def cases (style : ShadowStyle) (opensWithLength : Bool) (parts : ShadowParts) :
    List ((Node → Bool) × Option ShadowParts) :=
  [(Node.isLength,
      if 0 < parts.lengths && parts.hasColor && opensWithLength then none
      else if style.maxLengths < parts.lengths + 1 then none
      else some { parts with lengths := parts.lengths + 1 }),
    (Node.isColor,
      if parts.hasColor then none else some { parts with hasColor := true }),
    (Node.isVariable, some { parts with hasVariable := true }),
    (fun node =>
      style.allowsInset && !parts.hasInset && node.isKeyword ["inset"],
      some { parts with hasInset := true })]

theorem tellApart_cases (style : ShadowStyle) (opensWithLength : Bool)
    (parts : ShadowParts) (node : Node) :
    TellApart (parts.cases style opensWithLength) node := by
  have notInset (isOther : node.isKeyword ["inset"] = false) :
      (style.allowsInset && !parts.hasInset && node.isKeyword ["inset"]) =
        false := by
    rw [isOther, Bool.and_false]
  simp only [TellApart, cases, List.pairwise_cons, List.forall_mem_cons]
  have last {property : (Node → Bool) × Option ShadowParts → Prop} :
      ∀ further ∈ [], property further :=
    List.forall_mem_nil _
  refine ⟨⟨?_, ?_, ?_, last⟩, ⟨?_, ?_, last⟩, ⟨?_, last⟩, last, .nil⟩
  · exact not_both fun isLength => (Node.kinds_of_isLength isLength).1
  · exact not_both fun isLength => (Node.kinds_of_isLength isLength).2.1
  · exact not_both fun isLength => notInset (Node.kinds_of_isLength isLength).2.2
  · exact not_both fun isColor => (Node.kinds_of_isColor isColor).2.1
  · exact not_both fun isColor => notInset (Node.kinds_of_isColor isColor).2.2
  · exact not_both fun isVariable =>
      notInset (Node.kinds_of_isVariable isVariable).2.2

theorem add?_eq_classify? :
    parts.add? style opensWithLength node =
      (classify? (parts.cases style opensWithLength) node).join := by
  simp only [add?, cases, classify?]
  split
  · rfl
  split
  · rfl
  split
  · rfl
  split
  · rfl
  · rfl

theorem add?_of_perm {chain : List ((Node → Bool) × Option ShadowParts)}
    (permuted : chain.Perm (parts.cases style opensWithLength)) :
    (classify? chain node).join = parts.add? style opensWithLength node := by
  have apart := tellApart_cases style opensWithLength parts node
  rw [apart.classify?_perm permuted, add?_eq_classify?]

/-- Reading all items, each by the chain in the order that is given for it. -/
def addAllBy?
    (order : ShadowParts → List ((Node → Bool) × Option ShadowParts))
    (parts : ShadowParts) : List Node → Option ShadowParts
  | [] => some parts
  | [node] => (classify? (order parts) node).join
  | node :: gap :: rest =>
      match (classify? (order parts) node).join with
      | none => none
      | some next => if gap.isSpace then next.addAllBy? order rest else none

theorem addAllBy?_eq
    {order : ShadowParts → List ((Node → Bool) × Option ShadowParts)}
    (permuted : ∀ parts : ShadowParts,
      (order parts).Perm (parts.cases style opensWithLength))
    (parts : ShadowParts) (nodes : List Node) :
    parts.addAllBy? order nodes = parts.addAll? style opensWithLength nodes := by
  have step (parts : ShadowParts) (node : Node) :
      (classify? (order parts) node).join =
        parts.add? style opensWithLength node :=
    add?_of_perm (permuted parts)
  fun_induction addAllBy? order parts nodes with
  | case1 => rfl
  | case2 parts node => exact step parts node
  | case3 parts node gap rest notAdded =>
      rw [addAll?, ← step, notAdded]
  | case4 parts node gap rest next added isSpace ih =>
      rw [addAll?, ← step, added, ih]
      exact (if_pos isSpace).symm
  | case5 parts node gap rest next added notSpace =>
      rw [addAll?, ← step, added]
      exact (if_neg notSpace).symm

end ShadowParts

/-- A shadow, read by chains in the order that is given. -/
def isShadowBy
    (order : Bool → ShadowParts → List ((Node → Bool) × Option ShadowParts))
    (style : ShadowStyle) (group : List Node) : Bool :=
  (ShadowParts.addAllBy? (order (group.head?.any Node.isLength)) {} group).any
    fun parts => (parts.hasVariable || 2 ≤ parts.lengths) &&
      group.length ≤ style.maxNodes

theorem isShadow_of_perm {style : ShadowStyle}
    {order : Bool → ShadowParts → List ((Node → Bool) × Option ShadowParts)}
    (permuted : ∀ (opensWithLength : Bool) (parts : ShadowParts),
      (order opensWithLength parts).Perm (parts.cases style opensWithLength))
    (group : List Node) :
    isShadowBy order style group = isShadow style group := by
  rw [isShadowBy, ShadowParts.addAllBy?_eq (permuted _)]
  rfl

/-! Gradients, shapes and filters go by the name of the call. -/

def Gradient.calls : List (List String × (List Node → Bool)) :=
  [(["linear-gradient", "repeating-linear-gradient"],
      hasColorStops isLinearDefinition),
    (["radial-gradient", "repeating-radial-gradient"],
      hasColorStops isRadialDefinition)]

def Shape.calls : List (List String × (List Node → Bool)) :=
  [(["inset"], isListOf Node.isLengthPercentage .space), (["circle"], isRound 1),
    (["ellipse"], isRound 2), (["polygon"], isPolygon)]

def Filter.calls : List (List String × (List Node → Bool)) :=
  signatures.map (fun signature =>
      (signature.names, isTupleOf .comma signature.parameters)) ++
    [(["drop-shadow"], isDropShadow), (["url"], fun _ => true),
      (["var"], fun _ => true)]

namespace Node

variable {node : Node} {chain : List ((Node → Bool) × Bool)}

theorem isGradient_of_perm
    (permuted : chain.Perm (callCases Gradient.calls node)) :
    (classify? chain node).getD false = node.isGradient := by
  rw [any_of_callCases (by decide +kernel) permuted]
  simp [Gradient.calls, isGradient]

theorem isBasicShape_of_perm
    (permuted : chain.Perm (callCases Shape.calls node)) :
    (classify? chain node).getD false = node.isBasicShape := by
  rw [any_of_callCases (by decide +kernel) permuted]
  simp [Shape.calls, isBasicShape, Bool.or_assoc]

theorem isFilterFunction_of_perm
    (permuted : chain.Perm (callCases Filter.calls node)) :
    (classify? chain node).getD false = node.isFilterFunction := by
  rw [any_of_callCases (by decide +kernel) permuted]
  have isReference (names : List String) :
      (node.argsOf? names).any (fun _ => true) = node.isCallTo names := by
    rw [isCallTo]
    cases node.argsOf? names with
    | none => rfl
    | some args => rfl
  rw [Filter.calls, List.any_append, List.any_map, List.any_cons, List.any_cons,
    List.any_cons, List.any_nil, isReference, isReference, Bool.or_false,
    isFilterFunction, Bool.or_assoc, Bool.or_assoc]
  rfl

end Node

/-! Items and groups by their kinds. -/

inductive ItemKind where
  | length
  | color
deriving DecidableEq, Repr

inductive GroupKind where
  | lead
  | entry
deriving DecidableEq, Repr

namespace Filter

def itemCases : List ((Node → Bool) × ItemKind) :=
  [(Node.isLength, .length), (Node.isColor, .color)]

/-- The kinds of the items that a drop shadow may have. -/
def dropShadowKinds : List (List (Option ItemKind)) :=
  [[some .length, some .length], [some .length, some .length, some .length],
    [some .length, some .length, some .color],
    [some .length, some .length, some .length, some .color]]

variable {chain : List ((Node → Bool) × ItemKind)}

theorem tellApart_itemCases (node : Node) : TellApart itemCases node := by
  simp only [TellApart, itemCases, List.pairwise_cons, List.forall_mem_cons]
  exact ⟨⟨not_both Node.isColor_of_isLength, List.forall_mem_nil _⟩,
    List.forall_mem_nil _, .nil⟩

theorem isDropShadow_of_perm (permuted : chain.Perm itemCases)
    (args : List Node) :
    ((spacedItems? args).any fun items =>
        dropShadowKinds.contains (items.map (classify? chain))) =
      isDropShadow args := by
  have isLength (node : Node) :
      classify? chain node = some .length ↔ node.isLength = true := by
    rw [(tellApart_itemCases node).classify?_perm_iff permuted]
    simp [itemCases]
  have isColor (node : Node) :
      classify? chain node = some .color ↔ node.isColor = true := by
    rw [(tellApart_itemCases node).classify?_perm_iff permuted]
    simp [itemCases]
  rw [isDropShadow, Bool.eq_iff_iff]
  split
  next x y isItems => simp [isItems, dropShadowKinds, isLength]
  next x y third isItems =>
    simp [isItems, dropShadowKinds, isLength, isColor, ← and_or_left, and_assoc]
  next x y blur color isItems =>
    -- The test that the third item is no color is no further condition: it is a
    -- length or a color, and no color.
    have kinds : dropShadowKinds.contains
        ([x, y, blur, color].map (classify? chain)) = true ↔
          x.isLength = true ∧ y.isLength = true ∧ blur.isLength = true ∧
            color.isColor = true := by
      simp [dropShadowKinds, isLength, isColor]
    rw [isItems, Option.any_some, kinds]
    simp only [Bool.and_eq_true, Bool.or_eq_true, Bool.not_eq_true']
    constructor
    · intro found
      obtain ⟨isX, isY, isBlur, isLast⟩ := found
      exact ⟨⟨⟨⟨isX, isY⟩, .inl isBlur⟩, isLast⟩,
        Node.isColor_of_isLength isBlur⟩
    · intro found
      obtain ⟨⟨⟨⟨isX, isY⟩, isBlur⟩, isLast⟩, notColor⟩ := found
      refine ⟨isX, isY, isBlur.resolve_right ?_, isLast⟩
      rw [notColor]
      exact Bool.false_ne_true
  next notTwo notThree notFour =>
    cases isItems : spacedItems? args with
    | none => simp
    | some items =>
        obtain _ | ⟨first, _ | ⟨second, _ | ⟨third, _ | ⟨fourth, more⟩⟩⟩⟩ :=
          items
        · simp [dropShadowKinds]
        · simp [dropShadowKinds]
        · exact absurd isItems (notTwo first second)
        · exact absurd isItems (notThree first second third)
        · obtain _ | ⟨fifth, more⟩ := more
          · exact absurd isItems (notFour first second third fourth)
          · simp [dropShadowKinds]

end Filter

/-- The groups that may lead, and those that may follow. -/
def groupCases (isLead isEntry : List Node → Bool) :
    List ((List Node → Bool) × GroupKind) :=
  [(isLead, .lead), (isEntry, .entry)]

/-- Entries, so many at least, after a lead or none. -/
def areEntries (atLeast : Nat) (kinds : List (Option GroupKind)) : Bool :=
  let entries := if kinds.head? == some (some .lead) then kinds.tail else kinds
  atLeast ≤ entries.length && entries.all (· == some .entry)

section

variable {isLead isEntry : List Node → Bool}
  {chain : List ((List Node → Bool) × GroupKind)}

theorem areEntries_of_perm
    (apart : ∀ group, ¬ (isLead group = true ∧ isEntry group = true))
    (permuted : chain.Perm (groupCases isLead isEntry)) (atLeast : Nat)
    (groups : List (List Node)) :
    areEntries atLeast (groups.map (classify? chain)) =
      let entries := if groups.head?.any isLead then groups.tail else groups
      (atLeast ≤ entries.length && entries.all isEntry) := by
  have tellApart (group : List Node) :
      TellApart (groupCases isLead isEntry) group := by
    simp only [TellApart, groupCases, List.pairwise_cons, List.forall_mem_cons]
    exact ⟨⟨apart group, List.forall_mem_nil _⟩, List.forall_mem_nil _, .nil⟩
  have isLead_iff (group : List Node) :
      (classify? chain group == some .lead) = isLead group := by
    rw [Bool.eq_iff_iff, beq_iff_eq,
      (tellApart group).classify?_perm_iff permuted]
    simp [groupCases]
  have isEntry_iff (group : List Node) :
      (classify? chain group == some .entry) = isEntry group := by
    rw [Bool.eq_iff_iff, beq_iff_eq,
      (tellApart group).classify?_perm_iff permuted]
    simp [groupCases]
  have starts : ((groups.map (classify? chain)).head? == some (some .lead)) =
      groups.head?.any isLead := by
    cases groups with
    | nil => rfl
    | cons group groups => exact isLead_iff group
  rw [areEntries, starts]
  split
  · rw [← List.map_tail, List.length_map, List.all_map]
    simp only [Function.comp_def, isEntry_iff]
  · rw [List.length_map, List.all_map]
    simp only [Function.comp_def, isEntry_iff]

theorem hasColorStops_of_perm {isDefinition : List Node → Bool}
    (apart : ∀ group,
      ¬ (isDefinition group = true ∧ Gradient.isColorStop group = true))
    (permuted : chain.Perm (groupCases isDefinition Gradient.isColorStop))
    (args : List Node) :
    areEntries 2 ((commaGroups args).map (classify? chain)) =
      Gradient.hasColorStops isDefinition args :=
  areEntries_of_perm apart permuted 2 (commaGroups args)

theorem isPolygon_of_perm
    (permuted : chain.Perm (groupCases Shape.isFillRule Shape.isVertex))
    (args : List Node) :
    areEntries 1 ((commaGroups args).map (classify? chain)) =
      Shape.isPolygon args := by
  have notBoth (group : List Node) :
      ¬ (Shape.isFillRule group = true ∧ Shape.isVertex group = true) := by
    intro both
    obtain ⟨isFillRule, isVertex⟩ := both
    unfold Shape.isVertex at isVertex
    split at isVertex
    next => contradiction
    next => contradiction
  rw [areEntries_of_perm notBoth permuted, Shape.isPolygon]
  cases commaGroups args with
  | nil => rfl
  | cons first rest =>
      rw [List.head?_cons, Option.any_some, List.tail_cons]
      cases isLead : Shape.isFillRule first with
      | false => simp [isLead]
      | true =>
          cases rest with
          | nil => simp [isLead]
          | cons => simp [isLead]

end

/-- No leaf of a value is of two kinds, and no quantity passes for an
identifier. So the chains of tests that shadows, drop shadows, gradients and
shapes are read by can be put in any order: the items of a shadow and of a drop
shadow, the groups of a gradient and of a polygon, and the calls by name are
taken for the same. -/
theorem leafKinds_in_any_order :
    (∀ node : Node,
      [Node.isNumeric, Node.isColor, Node.isQuoted, Node.isUrl,
        Node.isGradient, Node.isVariable].Pairwise fun first second =>
          ¬ (first node = true ∧ second node = true)) ∧
    (∀ text : String, (Node.word text).isNumeric = true →
      (Node.word text).isCustomIdentifier = false) ∧
    (∀ (style : ShadowStyle) (order : Bool → ShadowParts →
        List ((Node → Bool) × Option ShadowParts)),
      (∀ (opensWithLength : Bool) (parts : ShadowParts),
        (order opensWithLength parts).Perm
          (parts.cases style opensWithLength)) →
      (∀ (opensWithLength : Bool) (parts : ShadowParts) (node : Node),
        (classify? (order opensWithLength parts) node).join =
          parts.add? style opensWithLength node) ∧
      ∀ group : List Node,
        isShadowBy order style group = isShadow style group) ∧
    (∀ (args : List Node) (chain : List ((Node → Bool) × ItemKind)),
      chain.Perm Filter.itemCases →
        ((spacedItems? args).any fun items =>
          Filter.dropShadowKinds.contains (items.map (classify? chain))) =
            Filter.isDropShadow args) ∧
    (∀ (args : List Node) (chain : List ((List Node → Bool) × GroupKind)),
      (∀ isDefinition ∈
          [Gradient.isLinearDefinition, Gradient.isRadialDefinition],
        chain.Perm (groupCases isDefinition Gradient.isColorStop) →
          areEntries 2 ((commaGroups args).map (classify? chain)) =
            Gradient.hasColorStops isDefinition args) ∧
      (chain.Perm (groupCases Shape.isFillRule Shape.isVertex) →
        areEntries 1 ((commaGroups args).map (classify? chain)) =
          Shape.isPolygon args)) ∧
    ∀ (node : Node) (chain : List ((Node → Bool) × Bool)),
      (chain.Perm (callCases Gradient.calls node) →
        (classify? chain node).getD false = node.isGradient) ∧
      (chain.Perm (callCases Shape.calls node) →
        (classify? chain node).getD false = node.isBasicShape) ∧
      (chain.Perm (callCases Filter.calls node) →
        (classify? chain node).getD false = node.isFilterFunction) := by
  refine ⟨?_, fun text => Node.isCustomIdentifier_of_isNumeric, ?_, ?_, ?_, ?_⟩
  · intro node
    have apart : (leafKinds.map Prod.fst).Pairwise fun first second =>
        ¬ (first node = true ∧ second node = true) :=
      List.pairwise_map.mpr (Node.leafKinds_apart node)
    exact apart
  · intro style order permuted
    refine ⟨fun opensWithLength parts node => ?_, isShadow_of_perm permuted⟩
    exact ShadowParts.add?_of_perm (permuted opensWithLength parts)
  · intro args chain permuted
    exact Filter.isDropShadow_of_perm permuted args
  · intro args chain
    refine ⟨?_, fun permuted => isPolygon_of_perm permuted args⟩
    simp only [List.forall_mem_cons]
    refine ⟨fun permuted => ?_, fun permuted => ?_, nofun⟩
    · refine hasColorStops_of_perm ?_ permuted args
      intro group
      rw [Gradient.isLinearDefinition_iff, Gradient.isColorStop_iff]
      exact fun both => both.2.not_definition.1 both.1
    · refine hasColorStops_of_perm ?_ permuted args
      intro group
      rw [Gradient.isRadialDefinition_iff, Gradient.isColorStop_iff]
      exact fun both => both.2.not_definition.2 both.1
  · intro node chain
    exact ⟨Node.isGradient_of_perm, Node.isBasicShape_of_perm,
      Node.isFilterFunction_of_perm⟩

/-- With every chain the other way round. -/
theorem leafKinds_in_any_order_reversed :
    (Node.word "-.5e1").isNumeric = true ∧
      (Node.word "-.5e1").isCustomIdentifier = false ∧
      isShadowBy (fun opensWithLength parts =>
          (parts.cases .box opensWithLength).reverse) .box
        [.word "red", .space " ", .word "0", .space " ", .word "1px"] =
          isShadow .box
            [.word "red", .space " ", .word "0", .space " ", .word "1px"] ∧
      ((spacedItems? [.word "0", .space " ", .word "1px"]).any fun items =>
        Filter.dropShadowKinds.contains
          (items.map (classify? Filter.itemCases.reverse))) =
        Filter.isDropShadow [.word "0", .space " ", .word "1px"] ∧
      areEntries 1 ((commaGroups [.word "evenodd"]).map
        (classify? (groupCases Shape.isFillRule Shape.isVertex).reverse)) =
          Shape.isPolygon [.word "evenodd"] ∧
      (classify? (callCases Filter.calls (.word "none")).reverse
        (.word "none")).getD false = (Node.word "none").isFilterFunction := by
  obtain ⟨-, notIdentifier, shadow, dropShadow, groups, calls⟩ :=
    leafKinds_in_any_order
  have isNumeric : (Node.word "-.5e1").isNumeric = true := by decide +kernel
  exact ⟨isNumeric, notIdentifier _ isNumeric,
    (shadow _ _ fun _ _ => List.reverse_perm _).2 _,
    dropShadow _ _ (List.reverse_perm _),
    (groups _ _).2 (List.reverse_perm _),
    (calls _ _).2.2 (List.reverse_perm _)⟩

end StyleValue
