import StyleValue.Proofs.Grammar.Layers
import StyleValue.Proofs.Name.Keyword
import StyleValue.Proofs.Property.Substitution

/-! Values made of layers are judged layer by layer. Each rule for one layer
asks for something in it and admits no divider, so the guards that the rules for
whole values have against dividers never decide anything. -/

namespace StyleValue

open Node (NeedsContent)

/-! What a layer may be. -/

namespace Node

theorem needsContent_isKeyword (keywords : List String) :
    NeedsContent (isKeyword keywords) :=
  ⟨fun _ => rfl, fun _ _ _ => rfl⟩

theorem needsContent_isVariable : NeedsContent isVariable :=
  ⟨fun _ => rfl, fun _ _ _ => rfl⟩

theorem needsContent_isKeywordOrVariable (keywords : List String) :
    NeedsContent (isKeywordOrVariable keywords) :=
  (needsContent_isKeyword keywords).or needsContent_isVariable

theorem needsContent_isLength : NeedsContent isLength :=
  ⟨fun _ => rfl, fun _ _ _ => rfl⟩

theorem needsContent_isLengthPercentage : NeedsContent isLengthPercentage :=
  ⟨fun _ => rfl, fun _ _ _ => rfl⟩

theorem needsContent_isColor : NeedsContent isColor :=
  ⟨fun _ => rfl, fun _ _ _ => rfl⟩

end Node

/-- Items that say something, with a space between neighbours. -/
theorem Alternates.isLayer {count : Nat} {nodes : List Node}
    (alternates : Alternates (fun node => node.isContent = true)
      (fun node => node.isSpace = true) count nodes) : IsLayer nodes := by
  rw [← List.append_nil nodes]
  exact alternates.isLayer_append (fun _ isContent => isContent)
    (fun _ isSpace => isSpace) nofun

namespace Position

variable {first second : Node}

theorem needsContent_isOffset : NeedsContent isOffset :=
  Node.needsContent_isLengthPercentage.or Node.needsContent_isVariable

theorem needsContent_isCoordinate (keywords : List String) :
    NeedsContent fun node =>
      node.isKeywordOrVariable keywords || node.isLengthPercentage :=
  (Node.needsContent_isKeywordOrVariable keywords).or
    Node.needsContent_isLengthPercentage

theorem isContent_of_isKeywordPair (pair : isKeywordPair first second = true) :
    first.isContent = true ∧ second.isContent = true := by
  simp only [isKeywordPair, Bool.or_eq_true, Bool.and_eq_true] at pair
  have needs := Node.needsContent_isKeywordOrVariable
  obtain across | along := pair
  · exact across.imp (needs horizontals).isContent (needs verticals).isContent
  · exact along.imp (needs verticals).isContent (needs horizontals).isContent

theorem isContent_of_isCoordinatePair
    (pair : isCoordinatePair first second = true) :
    first.isContent = true ∧ second.isContent = true := by
  rw [isCoordinatePair, Bool.and_eq_true_iff] at pair
  exact pair.imp (needsContent_isCoordinate horizontals).isContent
    (needsContent_isCoordinate verticals).isContent

theorem isContent_of_isEdgePair (pair : isEdgePair first second = true) :
    first.isContent = true ∧ second.isContent = true := by
  simp only [isEdgePair, Bool.and_eq_true, Bool.or_eq_true] at pair
  have needs := Node.needsContent_isKeywordOrVariable
  obtain ⟨across | along, -⟩ := pair
  · exact across.imp (needs _).isContent (needs _).isContent
  · exact along.imp (needs _).isContent (needs _).isContent

end Position

theorem isLayer_of_isPosition {group : List Node} :
    isPosition group = true → IsLayer group := by
  fun_cases isPosition group with
  | case1 only =>
      intro passed
      exact isLayer_singleton
        ((Position.needsContent_isCoordinate _).isContent passed)
  | case2 x gap y =>
      intro passed
      rw [Bool.and_eq_true_iff, Bool.or_eq_true_iff] at passed
      obtain ⟨isSpace, pair⟩ := passed
      have contents := pair.elim Position.isContent_of_isKeywordPair
        Position.isContent_of_isCoordinatePair
      have alternates : Alternates (fun node => node.isContent = true)
          (fun node => node.isSpace = true) 2 [x, gap, y] :=
        .more contents.1 isSpace (.one contents.2)
      exact alternates.isLayer
  | case3 first gap offset gap' second gap'' offset' =>
      intro passed
      simp only [Bool.and_eq_true] at passed
      obtain ⟨⟨⟨⟨⟨isSpace, isSpace'⟩, isSpace''⟩, pair⟩, isOffset⟩,
        isOffset'⟩ := passed
      have contents := Position.isContent_of_isEdgePair pair
      have offsets := Position.needsContent_isOffset
      have alternates : Alternates (fun node => node.isContent = true)
          (fun node => node.isSpace = true) 4
          [first, gap, offset, gap', second, gap'', offset'] :=
        .more contents.1 isSpace (.more (offsets.isContent isOffset) isSpace'
          (.more contents.2 isSpace'' (.one (offsets.isContent isOffset'))))
      exact alternates.isLayer
  | case4 =>
      intro passed
      contradiction

namespace Layer

theorem needsContent_isRepeat : NeedsContent fun node =>
    node.isKeyword ["repeat-x", "repeat-y"] ||
      node.isKeywordOrVariable repeats :=
  (Node.needsContent_isKeyword _).or
    (Node.needsContent_isKeywordOrVariable repeats)

/-- Spaces apart, a group of items that all say something is a layer. -/
theorem isLayer_of_filter {group items : List Node}
    (isFilter : (group.filter fun node => !node.isSpace) = items)
    (nonempty : items ≠ [])
    (contents : ∀ node ∈ items, node.isContent = true) : IsLayer group := by
  have inGroup : ∀ {node : Node}, node ∈ items ↔
      node ∈ group ∧ node.isSpace = false := by
    intro node
    rw [← isFilter, List.mem_filter, Bool.not_eq_true']
  apply isLayer_of_forall
  · intro node member
    cases isSpace : node.isSpace with
    | true => exact .inr rfl
    | false => exact .inl (contents node (inGroup.mpr ⟨member, isSpace⟩))
  · obtain ⟨first, rest, rfl⟩ := List.exists_cons_of_ne_nil nonempty
    exact ⟨first, (inGroup.mp List.mem_cons_self).1,
      contents first List.mem_cons_self⟩

theorem isLayer_of_isRepeatStyle {group : List Node}
    (passed : isRepeatStyle group = true) : IsLayer group := by
  unfold isRepeatStyle at passed
  split at passed
  next only isOnly =>
    apply isLayer_of_filter isOnly (List.cons_ne_nil _ _)
    intro node member
    rw [List.mem_singleton.mp member]
    exact needsContent_isRepeat.isContent passed
  next x y isPair =>
    rw [Bool.and_eq_true_iff] at passed
    have needs := Node.needsContent_isKeywordOrVariable repeats
    apply isLayer_of_filter isPair (List.cons_ne_nil _ _)
    intro node member
    obtain rfl | isY := List.mem_cons.mp member
    · exact needs.isContent passed.1
    · rw [List.mem_singleton.mp isY]
      exact needs.isContent passed.2
  next => contradiction

theorem needsContent_isExtent : NeedsContent isExtent :=
  ((Node.needsContent_isKeyword _).or Node.needsContent_isLengthPercentage).or
    Node.needsContent_isVariable

theorem isLayer_of_isSize {group : List Node} :
    isSize group = true → IsLayer group := by
  fun_cases isSize group with
  | case1 size =>
      intro passed
      exact isLayer_singleton (needsContent_isExtent.isContent passed)
  | case2 width gap height =>
      intro passed
      simp only [Bool.and_eq_true] at passed
      obtain ⟨⟨isWidth, isSpace⟩, isHeight⟩ := passed
      have alternates : Alternates (fun node => node.isContent = true)
          (fun node => node.isSpace = true) 2 [width, gap, height] :=
        .more (needsContent_isExtent.isContent isWidth) isSpace
          (.one (needsContent_isExtent.isContent isHeight))
      exact alternates.isLayer
  | case3 =>
      intro passed
      contradiction

end Layer

namespace ShadowParts

variable {style : ShadowStyle} {opensWithLength : Bool}

theorem Adds.isContent {parts next : ShadowParts} {node : Node}
    (adds : Adds style opensWithLength parts node next) :
    node.isContent = true := by
  cases adds with
  | length isLength => exact Node.needsContent_isLength.isContent isLength
  | color _ isColor => exact Node.needsContent_isColor.isContent isColor
  | reference _ _ isVariable =>
      exact Node.needsContent_isVariable.isContent isVariable
  | inset _ _ _ _ _ isInset =>
      exact (Node.needsContent_isKeyword _).isContent isInset

theorem forall_mem_of_addAll? {parts result : ShadowParts}
    {nodes : List Node}
    (added : parts.addAll? style opensWithLength nodes = some result) :
    ∀ node ∈ nodes, node.isContent = true ∨ node.isSpace = true := by
  fun_induction addAll? style opensWithLength parts nodes with
  | case1 => exact List.forall_mem_nil _
  | case2 parts node =>
      intro other member
      rw [List.mem_singleton.mp member]
      exact .inl (adds_of_add? added).isContent
  | case3 => contradiction
  | case4 parts node gap rest next addedFirst isSpace ih =>
      rw [List.forall_mem_cons, List.forall_mem_cons]
      exact ⟨.inl (adds_of_add? addedFirst).isContent, .inr isSpace, ih added⟩
  | case5 => contradiction

theorem isContent_of_addAll?_cons {parts result : ShadowParts} {node : Node}
    {rest : List Node}
    (added : parts.addAll? style opensWithLength (node :: rest) = some result) :
    node.isContent = true := by
  cases rest with
  | nil => exact (adds_of_add? added).isContent
  | cons gap rest =>
      rw [addAll?] at added
      split at added
      next => contradiction
      next next addedFirst => exact (adds_of_add? addedFirst).isContent

end ShadowParts

/-- An empty shadow lacks its lengths. -/
theorem isLayer_of_isShadow {style : ShadowStyle} {group : List Node}
    (passed : isShadow style group = true) : IsLayer group := by
  rw [isShadow] at passed
  cases added : ShadowParts.addAll? style (group.head?.any Node.isLength) {}
      group with
  | none =>
      rw [added] at passed
      contradiction
  | some parts =>
      apply isLayer_of_forall (ShadowParts.forall_mem_of_addAll? added)
      cases group with
      | nil =>
          cases added
          contradiction
      | cons node rest =>
          exact ⟨node, List.mem_cons_self,
            ShadowParts.isContent_of_addAll?_cons added⟩

/-! Rules for whole values. -/

section

variable {accepts : List Node → Bool}
  (isLayer : ∀ {group : List Node}, accepts group = true → IsLayer group)
  {nodes : List Node}

include isLayer

theorem isLayered_of_all (passed : (commaGroups nodes).all accepts = true) :
    IsLayered nodes := by
  intro group member
  exact isLayer (List.all_eq_true.mp passed group member)

/-- Where the layers are right the value does not end in a divider. -/
theorem undivided_eq :
    (!endsInDivider nodes && (commaGroups nodes).all accepts) =
      (commaGroups nodes).all accepts := by
  cases passed : (commaGroups nodes).all accepts with
  | false => exact Bool.and_false _
  | true =>
      rw [(isLayered_of_all isLayer passed).endsInDivider_eq_false]
      rfl

/-- Where the layers are right there is no slash between them. -/
theorem any_isSlash_eq_false (passed : (commaGroups nodes).all accepts = true) :
    nodes.any Node.isSlash = false := by
  rw [List.any_eq_false]
  intro node member
  have layered := isLayered_of_all isLayer passed
  have notSlash := layered.isDividerOf_eq_false member .slash nofun
  exact Bool.eq_false_iff.mp notSlash

end

theorem isPositionList_eq (nodes : List Node) :
    isPositionList nodes = (commaGroups nodes).all isPosition :=
  undivided_eq isLayer_of_isPosition

namespace Layer

theorem isRepeatStyleList_eq (nodes : List Node) :
    isRepeatStyleList nodes = (commaGroups nodes).all isRepeatStyle :=
  undivided_eq isLayer_of_isRepeatStyle

theorem isSizeList_eq (nodes : List Node) :
    isSizeList nodes = (isFit nodes || (commaGroups nodes).all isSize) := by
  rw [isSizeList]
  cases passed : (commaGroups nodes).all isSize with
  | false => rw [Bool.and_false]
  | true =>
      rw [any_isSlash_eq_false isLayer_of_isSize passed]
      rfl

theorem isExtent_eq_false_of_isFit {node : Node}
    (fit : node.isKeyword ["cover", "contain"] = true) :
    isExtent node = false := by
  rw [isExtent, Node.isKeyword_eq_false (by decide +kernel) fit,
    Node.isLengthPercentage_of_isKeyword (by decide +kernel) fit,
    Node.isVariable_of_isKeyword fit]
  rfl

theorem isLayer_of_isFit {nodes : List Node} :
    isFit nodes = true → IsLayer nodes := by
  fun_cases isFit nodes with
  | case1 only =>
      intro fit
      exact isLayer_singleton ((Node.needsContent_isKeyword _).isContent fit)
  | case2 =>
      intro fit
      contradiction

theorem isSize_eq_false_of_isFit {nodes : List Node} :
    isFit nodes = true → isSize nodes = false := by
  fun_cases isFit nodes with
  | case1 only => exact isExtent_eq_false_of_isFit
  | case2 =>
      intro fit
      contradiction

/-- A size that follows the area is no size among others. -/
theorem all_isSize_eq_false_of_isFit {nodes : List Node}
    (fit : isFit nodes = true) : (commaGroups nodes).all isSize = false := by
  rw [(isLayer_of_isFit fit).commaGroups_eq, List.all_cons,
    isSize_eq_false_of_isFit fit]
  rfl

/-- Sizes among others are those that do not follow the area. -/
theorem all_isSize_iff {nodes : List Node} :
    (commaGroups nodes).all isSize = true ↔
      isSizeList nodes = true ∧ isFit nodes = false := by
  rw [isSizeList_eq, Bool.or_eq_true_iff]
  constructor
  · intro passed
    refine ⟨.inr passed, Bool.eq_false_iff.mpr fun fit => ?_⟩
    rw [all_isSize_eq_false_of_isFit fit] at passed
    contradiction
  · rintro ⟨fit | passed, notFit⟩
    · rw [notFit] at fit
      contradiction
    · exact passed

theorem isFit_append_cons {before after : List Node} {comma : Node}
    (isComma : comma.isComma = true) :
    isFit (before ++ comma :: after) = false := by
  cases comma with
  | divider => cases before with
    | nil => cases after <;> rfl
    | cons first rest => cases rest <;> rfl
  | word | space | quoted | call => contradiction

end Layer

/-! Values on both sides of a comma. -/

namespace Grammar

/-- What stands on the two sides of a comma is judged apart. -/
def JudgesLayers (grammar : Grammar) : Prop :=
  ∀ (before after : List Node) (comma : Node), comma.isComma = true →
    (grammar.check (before ++ comma :: after) = .accept ↔
      grammar.check before = .accept ∧ grammar.check after = .accept)

theorem judgesLayers_of_forall {grammar : Grammar} {isLayer : List Node → Prop}
    (judged : ∀ nodes, grammar.check nodes = .accept ↔
      ∀ group ∈ commaGroups nodes, isLayer group) :
    grammar.JudgesLayers := by
  intro before after comma isComma
  rw [judged, judged, judged, commaGroups_append_cons before after isComma]
  exact List.forall_mem_append

theorem check_whole_eq_accept_iff {accepts : List Node → Bool}
    {nodes : List Node} :
    (whole accepts).check nodes = .accept ↔ accepts nodes = true := by
  rw [whole, check, Verdict.ofBool_eq_accept_iff]

theorem judgesLayers_whole {accepts isLayer : List Node → Bool}
    (judged : ∀ nodes, accepts nodes = (commaGroups nodes).all isLayer) :
    (whole accepts).JudgesLayers := by
  apply judgesLayers_of_forall
  intro nodes
  rw [check_whole_eq_accept_iff, judged, List.all_eq_true]

/-- The layers of a value are judged one by one. Only a size that follows the
area does not take other layers beside it. -/
theorem judgesLayers_lists :
    (∀ accepts ∈ [isPositionList, Layer.isRepeatStyleList, isShadowList .text,
        isShadowList .box], (whole accepts).JudgesLayers) ∧
      (∀ rule : ItemRule,
        (∀ node, node.isComma = true → rule.verdict node ≠ .accept) →
          (commaList rule).JudgesLayers) ∧
      ∀ (before after : List Node) (comma : Node), comma.isComma = true →
        ((whole Layer.isSizeList).check (before ++ comma :: after) = .accept ↔
          ((whole Layer.isSizeList).check before = .accept ∧
            (whole Layer.isSizeList).check after = .accept) ∧
          Layer.isFit before = false ∧ Layer.isFit after = false) := by
  refine ⟨?_, ?_, ?_⟩
  · simp only [List.forall_mem_cons]
    refine ⟨?_, ?_, ?_, ?_, nofun⟩
    · exact judgesLayers_whole isPositionList_eq
    · exact judgesLayers_whole Layer.isRepeatStyleList_eq
    · exact judgesLayers_whole fun _ => rfl
    · exact judgesLayers_whole fun _ => rfl
  · intro rule notComma
    exact judgesLayers_of_forall fun _ => check_commaList_iff notComma
  · intro before after comma isComma
    simp only [check_whole_eq_accept_iff]
    rw [Layer.isSizeList_eq, Layer.isFit_append_cons isComma, Bool.false_or,
      commaGroups_append_cons before after isComma, List.all_append,
      Bool.and_eq_true_iff, Layer.all_isSize_iff, Layer.all_isSize_iff]
    exact and_and_and_comm

theorem judgesLayers_lists_times :
    ((commaList (.test Node.isTime)).check ([.word "1s"] ++
          .divider .comma "" " " :: [.call "var" "" [.word "--x"] "" true,
            .divider .comma "" "", .word "2ms"]) = .accept ↔
        (commaList (.test Node.isTime)).check [.word "1s"] = .accept ∧
          (commaList (.test Node.isTime)).check
            [.call "var" "" [.word "--x"] "" true, .divider .comma "" "",
              .word "2ms"] = .accept) ∧
      (commaList (.test Node.isTime)).check [.word "1s"] = .accept ∧
      ¬ ((whole Layer.isSizeList).check ([.word "auto"] ++
        .divider .comma "" "" :: [.word "cover"]) = .accept) ∧
      (whole Layer.isSizeList).check [.word "cover"] = .accept := by
  have notComma : ∀ node : Node, node.isComma = true →
      (ItemRule.test Node.isTime).verdict node ≠ .accept := by
    intro node isComma
    cases node with
    | divider => nofun
    | word | space | quoted | call => contradiction
  have times := judgesLayers_lists.2.1 (.test Node.isTime) notComma
    [.word "1s"] [.call "var" "" [.word "--x"] "" true,
      .divider .comma "" "", .word "2ms"] (.divider .comma "" " ") rfl
  have sizes := judgesLayers_lists.2.2 [.word "auto"] [.word "cover"]
    (.divider .comma "" "") rfl
  have isFit : Layer.isFit [.word "cover"] = true := by decide +kernel
  refine ⟨times, by decide +kernel, ?_, by decide +kernel⟩
  rw [sizes, isFit]
  exact fun both => nomatch both.2.2

end Grammar

end StyleValue
