import StyleValue.Proofs.Effect.Shadow
import StyleValue.Proofs.Grammar.Substitution
import StyleValue.Validation

/-! A valid value stays valid when a variable is put in the place of an item,
whatever the property. -/

namespace StyleValue

theorem endsInDivider_eq {nodes later : List Node}
    (substituted : IsSubstituted nodes later) :
    endsInDivider later = endsInDivider nodes :=
  any_getLast?_eq_of_forall₂ (fun _ _ becomes => becomes.isDivider_eq)
    substituted

theorem Node.MayBecome.isKeywordOrVariable {node later : Node}
    (becomes : node.MayBecome later) {keywords : List String}
    (passed : node.isKeywordOrVariable keywords = true) :
    later.isKeywordOrVariable keywords = true := by
  refine becomes.passes (fun node isVariable => ?_) passed
  rw [Node.isKeywordOrVariable, isVariable, Bool.or_true]

/-! Positions. -/

namespace Position

variable {first second laterFirst laterSecond : Node}

theorem isOffset_of_mayBecome (becomes : first.MayBecome laterFirst)
    (passed : isOffset first = true) : isOffset laterFirst = true := by
  refine becomes.passes (fun node isVariable => ?_) passed
  rw [isOffset, isVariable, Bool.or_true]

theorem isCoordinate_of_mayBecome (becomes : first.MayBecome laterFirst)
    {keywords : List String}
    (passed : (first.isKeywordOrVariable keywords ||
      first.isLengthPercentage) = true) :
    (laterFirst.isKeywordOrVariable keywords ||
      laterFirst.isLengthPercentage) = true := by
  cases becomes with
  | same => exact passed
  | replaced _ _ isVariable =>
      rw [Node.isKeywordOrVariable, isVariable, Bool.or_true, Bool.true_or]

theorem isKeywordPair_of_mayBecome (firstBecomes : first.MayBecome laterFirst)
    (secondBecomes : second.MayBecome laterSecond)
    (passed : isKeywordPair first second = true) :
    isKeywordPair laterFirst laterSecond = true := by
  simp only [isKeywordPair, Bool.or_eq_true, Bool.and_eq_true] at passed ⊢
  exact passed.imp
    (.imp firstBecomes.isKeywordOrVariable secondBecomes.isKeywordOrVariable)
    (.imp firstBecomes.isKeywordOrVariable secondBecomes.isKeywordOrVariable)

theorem isCoordinatePair_of_mayBecome
    (firstBecomes : first.MayBecome laterFirst)
    (secondBecomes : second.MayBecome laterSecond)
    (passed : isCoordinatePair first second = true) :
    isCoordinatePair laterFirst laterSecond = true := by
  rw [isCoordinatePair, Bool.and_eq_true_iff] at passed ⊢
  exact passed.imp (isCoordinate_of_mayBecome firstBecomes)
    (isCoordinate_of_mayBecome secondBecomes)

theorem isEdgePair_of_mayBecome (firstBecomes : first.MayBecome laterFirst)
    (secondBecomes : second.MayBecome laterSecond)
    (passed : isEdgePair first second = true) :
    isEdgePair laterFirst laterSecond = true := by
  simp only [isEdgePair, Bool.or_eq_true, Bool.and_eq_true,
    Bool.not_eq_true'] at passed ⊢
  obtain ⟨axes, notCenter⟩ := passed
  refine ⟨axes.imp
    (.imp firstBecomes.isKeywordOrVariable secondBecomes.isKeywordOrVariable)
    (.imp firstBecomes.isKeywordOrVariable
      secondBecomes.isKeywordOrVariable), ?_⟩
  cases secondBecomes with
  | same => exact notCenter
  | replaced _ _ isVariable => exact Node.isWordThat_of_isVariable isVariable _

end Position

theorem admitsVariables_isPosition : AdmitsVariables isPosition := by
  intro nodes later substituted
  fun_cases isPosition nodes with
  | case1 only =>
      obtain _ | ⟨becomes, ⟨⟩⟩ := substituted
      intro passed
      exact Position.isCoordinate_of_mayBecome becomes passed
  | case2 x gap y =>
      obtain _ | ⟨xBecomes, _ | ⟨gapBecomes, _ | ⟨yBecomes, ⟨⟩⟩⟩⟩ := substituted
      intro passed
      rw [Bool.and_eq_true_iff, Bool.or_eq_true_iff] at passed
      rw [isPosition, Bool.and_eq_true_iff, Bool.or_eq_true_iff,
        gapBecomes.isSpace_eq]
      exact passed.imp_right (.imp
        (Position.isKeywordPair_of_mayBecome xBecomes yBecomes)
        (Position.isCoordinatePair_of_mayBecome xBecomes yBecomes))
  | case3 first gap offset gap' second gap'' offset' =>
      obtain _ | ⟨firstBecomes, _ | ⟨gapBecomes, _ | ⟨offsetBecomes,
        _ | ⟨gapBecomes', _ | ⟨secondBecomes, _ | ⟨gapBecomes'',
        _ | ⟨offsetBecomes', ⟨⟩⟩⟩⟩⟩⟩⟩⟩ := substituted
      intro passed
      simp only [isPosition, Bool.and_eq_true] at passed ⊢
      rw [gapBecomes.isSpace_eq, gapBecomes'.isSpace_eq,
        gapBecomes''.isSpace_eq]
      obtain ⟨⟨⟨gaps, edges⟩, isOffset⟩, isOffset'⟩ := passed
      exact ⟨⟨⟨gaps,
        Position.isEdgePair_of_mayBecome firstBecomes secondBecomes edges⟩,
        Position.isOffset_of_mayBecome offsetBecomes isOffset⟩,
        Position.isOffset_of_mayBecome offsetBecomes' isOffset'⟩
  | case4 => exact nofun

theorem AdmitsVariables.undivided {accepts : List Node → Bool}
    (admits : AdmitsVariables accepts) :
    AdmitsVariables fun nodes =>
      !endsInDivider nodes && (commaGroups nodes).all accepts := by
  intro nodes later substituted passed
  rw [Bool.and_eq_true_iff] at passed ⊢
  rw [endsInDivider_eq substituted]
  exact passed.imp_right (admits.all_commaGroups substituted)

/-! Layers. -/

namespace Layer

theorem isSubstituted_items {nodes later : List Node}
    (substituted : IsSubstituted nodes later) :
    IsSubstituted (nodes.filter fun node => !node.isSpace)
      (later.filter fun node => !node.isSpace) := by
  apply List.rel_filter _ substituted
  intro node later becomes
  simp only [becomes.isSpace_eq]

theorem isRepeat_of_mayBecome {node later : Node}
    (becomes : node.MayBecome later)
    (passed : (node.isKeyword ["repeat-x", "repeat-y"] ||
      node.isKeywordOrVariable repeats) = true) :
    (later.isKeyword ["repeat-x", "repeat-y"] ||
      later.isKeywordOrVariable repeats) = true := by
  cases becomes with
  | same => exact passed
  | replaced _ _ isVariable =>
      rw [Node.isKeywordOrVariable, isVariable, Bool.or_true, Bool.or_true]

theorem admitsVariables_isRepeatStyle : AdmitsVariables isRepeatStyle := by
  intro nodes later substituted passed
  have items := isSubstituted_items substituted
  unfold isRepeatStyle at passed ⊢
  split at passed
  next only isOnly =>
    rw [isOnly] at items
    obtain ⟨laterOnly, rest, becomes, noRest, laterItems⟩ :=
      List.forall₂_cons_left_iff.mp items
    rw [laterItems, List.forall₂_nil_left_iff.mp noRest]
    exact isRepeat_of_mayBecome becomes passed
  next x y isPair =>
    rw [isPair] at items
    obtain ⟨laterX, rest, xBecomes, restItems, laterItems⟩ :=
      List.forall₂_cons_left_iff.mp items
    obtain ⟨laterY, noMore, yBecomes, noRest, laterRest⟩ :=
      List.forall₂_cons_left_iff.mp restItems
    rw [laterItems, laterRest, List.forall₂_nil_left_iff.mp noRest]
    rw [Bool.and_eq_true_iff] at passed
    exact Bool.and_eq_true_iff.mpr (passed.imp
      xBecomes.isKeywordOrVariable yBecomes.isKeywordOrVariable)
  next => contradiction

theorem isExtent_of_mayBecome {node later : Node}
    (becomes : node.MayBecome later) (passed : isExtent node = true) :
    isExtent later = true := by
  refine becomes.passes (fun node isVariable => ?_) passed
  rw [isExtent, isVariable, Bool.or_true]

theorem admitsVariables_isSize : AdmitsVariables isSize := by
  intro nodes later substituted
  fun_cases isSize nodes with
  | case1 size =>
      obtain _ | ⟨becomes, ⟨⟩⟩ := substituted
      exact isExtent_of_mayBecome becomes
  | case2 width gap height =>
      obtain _ | ⟨widthBecomes, _ | ⟨gapBecomes, _ | ⟨heightBecomes, ⟨⟩⟩⟩⟩ :=
        substituted
      intro passed
      simp only [isSize, Bool.and_eq_true] at passed ⊢
      rw [gapBecomes.isSpace_eq]
      exact ⟨passed.1.imp_left (isExtent_of_mayBecome widthBecomes),
        isExtent_of_mayBecome heightBecomes passed.2⟩
  | case3 => exact nofun

theorem isSizeList_of_isVariable {node : Node}
    (isVariable : node.isVariable = true) : isSizeList [node] = true := by
  have isExtent : isExtent node = true := by
    rw [isExtent, isVariable, Bool.or_true]
  obtain ⟨_, _, _, _, _, rfl, -⟩ := Node.isVariable_iff.mp isVariable
  simp [isSizeList, commaGroups, groupsBy, Node.isComma, Node.isSlash,
    Node.isDividerOf, isSize, isExtent]

theorem isSizeList_of_isFit {nodes later : List Node}
    (substituted : IsSubstituted nodes later) :
    isFit nodes = true → isSizeList later = true := by
  fun_cases isFit nodes with
  | case1 only =>
      intro fit
      obtain _ | ⟨becomes, ⟨⟩⟩ := substituted
      cases becomes with
      | same => rw [isSizeList, isFit, fit, Bool.true_or]
      | replaced _ _ isVariable => exact isSizeList_of_isVariable isVariable
  | case2 => exact nofun

theorem admitsVariables_isSizeList : AdmitsVariables isSizeList := by
  intro nodes later substituted passed
  rw [isSizeList, Bool.or_eq_true_iff] at passed
  obtain fit | sizes := passed
  · exact isSizeList_of_isFit substituted fit
  · rw [Bool.and_eq_true_iff] at sizes
    have slashes : later.any Node.isSlash = nodes.any Node.isSlash :=
      any_eq_of_forall₂ (fun _ _ becomes => becomes.isDividerOf_eq .slash)
        substituted
    have laterSizes : (commaGroups later).all isSize = true :=
      admitsVariables_isSize.all_commaGroups substituted sizes.2
    rw [isSizeList, slashes, sizes.1, laterSizes, Bool.true_and, Bool.or_true]

end Layer

/-! Properties. -/

namespace Property

set_option maxRecDepth 2000 in
/-- All rules of their own in the catalogue, in its order. -/
theorem customs_families :
    (families.flatMap fun family => family.grammar.customs) =
      [isPositionList, Layer.isRepeatStyleList, Layer.isSizeList, isPosition,
        isShadowList .box, isShadowList .text, isPosition, isPositionList,
        isPosition].map fun accepts nodes => Verdict.ofBool (accepts nodes) :=
  rfl

theorem admitsVariables_families :
    ∀ family ∈ families, family.grammar.AdmitsVariables := by
  intro family member
  apply Grammar.admitsVariables_of_customs
  intro verdict isCustom
  have inCatalogue : verdict ∈
      families.flatMap fun family => family.grammar.customs :=
    List.mem_flatMap.mpr ⟨family, member, isCustom⟩
  rw [customs_families, List.mem_map] at inCatalogue
  obtain ⟨accepts, isRule, rfl⟩ := inCatalogue
  simp only [Verdict.isAccept_ofBool]
  have positions := admitsVariables_isPosition.undivided
  have repeats := Layer.admitsVariables_isRepeatStyle.undivided
  simp only [List.mem_cons, List.not_mem_nil, or_false] at isRule
  obtain rfl | rfl | rfl | rfl | rfl | rfl | rfl | rfl | rfl := isRule
  · exact positions
  · exact repeats
  · exact Layer.admitsVariables_isSizeList
  · exact admitsVariables_isPosition
  · exact admitsVariables_isShadowList .box
  · exact admitsVariables_isShadowList .text
  · exact admitsVariables_isPosition
  · exact positions
  · exact admitsVariables_isPosition

theorem admitsVariables_of_grammar? {property : String} {grammar : Grammar}
    (found : grammar? property = some grammar) : grammar.AdmitsVariables := by
  obtain ⟨family, isFamily, rfl⟩ := Option.map_eq_some_iff.mp found
  exact admitsVariables_families family (List.mem_of_find?_eq_some isFamily)

end Property

/-! Values. -/

theorem validateNodes_eq_valid_iff {property : String} {nodes : List Node} :
    validateNodes property nodes = .valid ↔
      isUniversal nodes = true ∨ nodes ≠ [] ∧
        ∃ grammar, Property.grammar? property = some grammar ∧
          grammar.check nodes = .accept := by
  unfold validateNodes
  split
  next universal => simp [universal]
  next notUniversal =>
    cases found : Property.grammar? property with
    | none => simp [notUniversal]
    | some grammar =>
        cases nodes with
        | nil => simp [isUniversal]
        | cons node rest =>
            cases verdict : grammar.check (node :: rest) with
            | accept => simp [verdict]
            | mismatch | reject => simp [notUniversal, verdict]

theorem length_of_isUniversal {nodes : List Node} :
    isUniversal nodes = true → nodes.length = 1 := by
  fun_cases isUniversal nodes with
  | case1 node => exact fun _ => rfl
  | case2 => exact nofun

theorem isUniversal_of_isSubstituted {node : Node} {later : List Node}
    (substituted : IsSubstituted [node] later) :
    later = [node] ∨ isUniversal later = true := by
  obtain _ | ⟨becomes, ⟨⟩⟩ := substituted
  cases becomes with
  | same => exact .inl rfl
  | replaced _ _ isVariable =>
      right
      rw [isUniversal, isVariable, Bool.or_true]

theorem validateNodes_of_isSubstituted {property : String}
    {nodes later : List Node} (substituted : IsSubstituted nodes later)
    (isValid : validateNodes property nodes = .valid) :
    validateNodes property later = .valid := by
  by_cases isOne : nodes.length = 1
  · obtain ⟨node, rfl⟩ := List.length_eq_one_iff.mp isOne
    obtain rfl | universal := isUniversal_of_isSubstituted substituted
    · exact isValid
    · exact validateNodes_eq_valid_iff.mpr (.inl universal)
  · obtain universal | ⟨nonempty, grammar, found, accepted⟩ :=
      validateNodes_eq_valid_iff.mp isValid
    · exact absurd (length_of_isUniversal universal) isOne
    · have laterAccepted := Property.admitsVariables_of_grammar? found
        substituted isOne accepted
      refine validateNodes_eq_valid_iff.mpr
        (.inr ⟨?_, grammar, found, laterAccepted⟩)
      rintro rfl
      exact nonempty (List.forall₂_nil_right_iff.mp substituted)

/-- Put a variable in the place of any item of a valid value: the value is
still valid. -/
theorem validateNodes_variable (property : String) (before after : List Node)
    (node : Node) (notSpace : node.isSpace = false)
    (notDivider : node.isDivider = false)
    (isValid : validateNodes property (before ++ node :: after) = .valid)
    (name opening closing : String) (args : List Node) (closed : Bool)
    (named : lowerCase name = "var") :
    validateNodes property
      (before ++ .call name opening args closing closed :: after) = .valid := by
  have isVariable :
      (Node.call name opening args closing closed).isVariable = true := by
    rw [Node.isVariable_iff]
    refine ⟨name, opening, args, closing, closed, rfl, ?_⟩
    rw [sameName, named]
    decide +kernel
  exact validateNodes_of_isSubstituted
    (isSubstituted_append (.replaced notSpace notDivider isVariable)
      before after) isValid

theorem validateNodes_variable_blur :
    validateNodes "box-shadow"
        [.word "1px", .space " ", .word "2px", .space " ", .word "4px",
          .divider .comma "" " ", .word "inset", .space " ", .word "0",
          .space " ", .word "3px", .space " ", .word "red"] = .valid ∧
      validateNodes "box-shadow"
        [.word "1px", .space " ", .word "2px", .space " ",
          .call "Var" "" [.word "--blur"] "" true, .divider .comma "" " ",
          .word "inset", .space " ", .word "0", .space " ", .word "3px",
          .space " ", .word "red"] = .valid := by
  have isValid : validateNodes "box-shadow"
      [.word "1px", .space " ", .word "2px", .space " ", .word "4px",
        .divider .comma "" " ", .word "inset", .space " ", .word "0",
        .space " ", .word "3px", .space " ", .word "red"] = .valid := by
    decide +kernel
  exact ⟨isValid, validateNodes_variable "box-shadow"
    [.word "1px", .space " ", .word "2px", .space " "]
    [.divider .comma "" " ", .word "inset", .space " ", .word "0",
      .space " ", .word "3px", .space " ", .word "red"]
    (.word "4px") rfl rfl isValid "Var" "" "" [.word "--blur"] true
    (by decide +kernel)⟩

end StyleValue
