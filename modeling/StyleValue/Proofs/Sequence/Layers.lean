import StyleValue.Geometry.Position

/-! Layers, the runs of a value between its commas. A comma between two values
keeps their layers apart, and a value whose layers all say something has no
divider at its end and none but commas. -/

namespace StyleValue

/-! Runs between breaks. -/

section Groups

variable {α : Type} {isBreak : α → Bool}

theorem groupsBy_append_cons (before after : List α) {element : α}
    (breaks : isBreak element = true) :
    groupsBy isBreak (before ++ element :: after) =
      groupsBy isBreak before ++ groupsBy isBreak after := by
  induction before with
  | nil => simp [groupsBy, breaks]
  | cons first rest ih =>
      rw [List.cons_append, groupsBy, groupsBy, ih]
      split
      · rfl
      · obtain ⟨group, groups, isCons⟩ :=
          List.exists_cons_of_ne_nil (groupsBy_ne_nil isBreak rest)
        rw [isCons]
        rfl

theorem flatten_groupsBy (elements : List α) :
    (groupsBy isBreak elements).flatten =
      elements.filter fun element => !isBreak element := by
  induction elements with
  | nil => rfl
  | cons first rest ih =>
      rw [groupsBy]
      split
      next breaks =>
        rw [List.flatten_cons, List.nil_append, ih,
          List.filter_cons_of_neg (by simp [breaks])]
      next stays =>
        rw [List.filter_cons_of_pos (by simp [stays]), ← ih]
        obtain ⟨group, groups, isCons⟩ :=
          List.exists_cons_of_ne_nil (groupsBy_ne_nil isBreak rest)
        rw [isCons]
        rfl

/-- Every element that is no break is in some run, and nothing else is. -/
theorem exists_mem_groupsBy_iff {elements : List α} {element : α} :
    (∃ group ∈ groupsBy isBreak elements, element ∈ group) ↔
      element ∈ elements ∧ isBreak element = false := by
  rw [← List.mem_flatten, flatten_groupsBy, List.mem_filter,
    Bool.not_eq_true']

theorem groupsBy_of_forall {elements : List α}
    (stays : ∀ element ∈ elements, isBreak element = false) :
    groupsBy isBreak elements = [elements] := by
  induction elements with
  | nil => rfl
  | cons first rest ih =>
      obtain ⟨firstStays, restStays⟩ := List.forall_mem_cons.mp stays
      rw [groupsBy, firstStays, ih restStays]
      rfl

end Groups

theorem commaGroups_append_cons (before after : List Node) {comma : Node}
    (isComma : comma.isComma = true) :
    commaGroups (before ++ comma :: after) =
      commaGroups before ++ commaGroups after :=
  groupsBy_append_cons before after isComma

/-! Items that say something. -/

namespace Node

def isContent : Node → Bool
  | .word _ => true
  | .quoted _ _ _ => true
  | .call _ _ _ _ _ => true
  | _ => false

theorem isDivider_eq_false_of_isContent {node : Node}
    (isContent : node.isContent = true) : node.isDivider = false := by
  cases node with
  | divider => contradiction
  | word | space | quoted | call => rfl

theorem isDivider_eq_false_of_isSpace {node : Node}
    (isSpace : node.isSpace = true) : node.isDivider = false := by
  cases node with
  | divider => contradiction
  | word | space | quoted | call => rfl

theorem isDivider_of_isDividerOf {node : Node} {kind : Divider}
    (isKind : node.isDividerOf kind = true) : node.isDivider = true := by
  cases node with
  | divider => rfl
  | word | space | quoted | call => contradiction

/-- The test passes over spaces and dividers. -/
structure NeedsContent (test : Node → Bool) : Prop where
  space : ∀ text, test (.space text) = false
  divider : ∀ kind before after, test (.divider kind before after) = false

theorem NeedsContent.isContent {test : Node → Bool} (needs : NeedsContent test)
    {node : Node} (passed : test node = true) : node.isContent = true := by
  cases node with
  | word | quoted | call => rfl
  | space text =>
      rw [needs.space] at passed
      contradiction
  | divider kind before after =>
      rw [needs.divider] at passed
      contradiction

theorem NeedsContent.or {first second : Node → Bool}
    (needs : NeedsContent first) (needs' : NeedsContent second) :
    NeedsContent fun node => first node || second node := by
  constructor
  · intro text
    rw [needs.space, needs'.space]
    rfl
  · intro kind before after
    rw [needs.divider, needs'.divider]
    rfl

end Node

/-! Layers. -/

/-- A run without dividers, in which something is said. -/
structure IsLayer (group : List Node) : Prop where
  undivided : ∀ node ∈ group, node.isDivider = false
  filled : ∃ node ∈ group, node.isContent = true

theorem isLayer_of_forall {group : List Node}
    (plain : ∀ node ∈ group, node.isContent = true ∨ node.isSpace = true)
    (filled : ∃ node ∈ group, node.isContent = true) : IsLayer group := by
  refine ⟨?_, filled⟩
  intro node member
  obtain isContent | isSpace := plain node member
  · exact Node.isDivider_eq_false_of_isContent isContent
  · exact Node.isDivider_eq_false_of_isSpace isSpace

theorem isLayer_singleton {node : Node} (isContent : node.isContent = true) :
    IsLayer [node] := by
  apply isLayer_of_forall
  · intro other member
    rw [List.mem_singleton.mp member]
    exact .inl isContent
  · exact ⟨node, List.mem_singleton_self node, isContent⟩

theorem not_isLayer_nil : ¬ IsLayer [] := by
  rintro ⟨-, node, member, -⟩
  exact absurd member List.not_mem_nil

/-- All runs of the value between its commas are layers. -/
def IsLayered (nodes : List Node) : Prop :=
  ∀ group ∈ commaGroups nodes, IsLayer group

theorem IsLayer.commaGroups_eq {nodes : List Node} (layer : IsLayer nodes) :
    commaGroups nodes = [nodes] := by
  apply groupsBy_of_forall
  intro node member
  have undivided := layer.undivided node member
  rw [← Bool.not_eq_true]
  intro isComma
  rw [Node.isDivider_of_isDividerOf isComma] at undivided
  contradiction

theorem IsLayer.isLayered {nodes : List Node} (layer : IsLayer nodes) :
    IsLayered nodes := by
  intro group member
  rw [layer.commaGroups_eq, List.mem_singleton] at member
  rw [member]
  exact layer

theorem isLayered_append_cons {before after : List Node} {comma : Node}
    (isComma : comma.isComma = true) :
    IsLayered (before ++ comma :: after) ↔
      IsLayered before ∧ IsLayered after := by
  rw [IsLayered, commaGroups_append_cons before after isComma]
  exact List.forall_mem_append

namespace IsLayered

variable {nodes : List Node} (layered : IsLayered nodes)

include layered

theorem exists_isContent : ∃ node ∈ nodes, node.isContent = true := by
  obtain ⟨group, groups, isCons⟩ :=
    List.exists_cons_of_ne_nil (groupsBy_ne_nil Node.isComma nodes)
  have member : group ∈ commaGroups nodes := by
    rw [commaGroups, isCons]
    exact List.mem_cons_self
  obtain ⟨node, inGroup, isContent⟩ := (layered group member).filled
  have inNodes := exists_mem_groupsBy_iff.mp ⟨group, member, inGroup⟩
  exact ⟨node, inNodes.1, isContent⟩

/-- Only commas divide the value. -/
theorem isComma_of_isDivider {node : Node} (member : node ∈ nodes)
    (isDivider : node.isDivider = true) : node.isComma = true := by
  rw [← Bool.not_eq_false]
  intro notComma
  obtain ⟨group, isGroup, inGroup⟩ :=
    exists_mem_groupsBy_iff.mpr ⟨member, notComma⟩
  have undivided := (layered group isGroup).undivided node inGroup
  rw [isDivider] at undivided
  contradiction

theorem isDividerOf_eq_false {node : Node} (member : node ∈ nodes)
    (kind : Divider) (notComma : kind ≠ .comma) :
    node.isDividerOf kind = false := by
  rw [← Bool.not_eq_true]
  intro isKind
  have isComma :=
    layered.isComma_of_isDivider member (Node.isDivider_of_isDividerOf isKind)
  cases node with
  | divider found before after =>
      have isFound : found = kind := by simpa [Node.isDividerOf] using isKind
      have isCommaToo : found = .comma := by
        simpa [Node.isComma, Node.isDividerOf] using isComma
      exact notComma (isFound.symm.trans isCommaToo)
  | word | space | quoted | call => contradiction

/-- A comma at the end would leave a last run with nothing in it. -/
theorem endsInDivider_eq_false : endsInDivider nodes = false := by
  rcases nodes.eq_nil_or_concat with rfl | ⟨init, last, rfl⟩
  · rfl
  rw [List.concat_eq_append] at layered ⊢
  rw [endsInDivider, List.getLast?_concat, Option.any_some, ← Bool.not_eq_true]
  intro isDivider
  have inNodes : last ∈ init ++ [last] :=
    List.mem_append_right init (List.mem_singleton_self last)
  have isComma := layered.isComma_of_isDivider inNodes isDivider
  have lastRun := ((isLayered_append_cons isComma).mp layered).2
  exact not_isLayer_nil (lastRun [] (List.mem_singleton_self []))

end IsLayered

end StyleValue
