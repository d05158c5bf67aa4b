import StyleValue.Proofs.Paint.Likeness
import StyleValue.Validation

/-! No property tells values that are alike apart: neither the blanks, quotes
and missing brackets of a value nor its letter case, numbers excepted, have a
part in what is said of it. -/

namespace StyleValue

variable {like : Likeness}

open Node (Respects)

/-! Effects. -/

namespace Filter

open Node

theorem respectsAll_isDropShadow : RespectsAll like isDropShadow := by
  intro args later alike
  have items := alike.spacedItems?
  rw [isDropShadow, isDropShadow]
  generalize spacedItems? args = found at items
  generalize spacedItems? later = laterFound at items
  cases items with
  | none => rfl
  | some itemsAlike =>
      obtain _ | ⟨x, _ | ⟨y, _ | ⟨third, _ | ⟨fourth, _ | _⟩⟩⟩⟩ := itemsAlike
      · rfl
      · rfl
      · simp only [respects_isLength x, respects_isLength y]
      · simp only [respects_isLength x, respects_isLength y,
          respects_isLength third, respects_isColor third]
      · simp only [respects_isLength x, respects_isLength y,
          respects_isLength third, respects_isColor third,
          respects_isColor fourth]
      · rfl

end Filter

@[simp] theorem Node.respects_isFilterFunction :
    Respects like Node.isFilterFunction := by
  have amount : Respects like fun node =>
      node.isNumber || node.isPercentage :=
    respects_isNumber.or respects_isPercentage
  have signatures : Respects like fun node =>
      Filter.signatures.any (·.fits node) := by
    apply Signature.respects_anyFits
    simp [Filter.signatures, amount]
  exact ((signatures.or
    (respects_anyArgs Filter.respectsAll_isDropShadow _)).or
    respects_isUrl).or respects_isVariable

namespace ShadowParts

open Node

variable {style : ShadowStyle} {opensWithLength : Bool}

theorem add?_eq {node later : Node} (alike : node.Alike like later)
    (parts : ShadowParts) :
    parts.add? style opensWithLength later =
      parts.add? style opensWithLength node := by
  simp only [add?, respects_isLength alike, respects_isColor alike,
    respects_isVariable alike, respects_isKeyword _ alike]

theorem addAll?_eq :
    (nodes : List Node) → {later : List Node} → AllAlike like nodes later →
      (parts : ShadowParts) →
        parts.addAll? style opensWithLength later =
          parts.addAll? style opensWithLength nodes
  | [], _, .nil, _ => rfl
  | [_], _, .cons itemAlike .nil, parts => add?_eq itemAlike parts
  | _ :: _ :: rest, _, .cons itemAlike (.cons gapAlike restAlike), parts => by
      have further := addAll?_eq rest restAlike
      simp only [addAll?, add?_eq itemAlike, respects_isSpace gapAlike, further]

end ShadowParts

theorem respectsAll_isShadow (style : ShadowStyle) :
    RespectsAll like (isShadow style) := by
  intro nodes later alike
  have opens : later.head?.any Node.isLength =
      nodes.head?.any Node.isLength := by
    cases alike with
    | nil => rfl
    | cons first _ => exact Node.respects_isLength first
  rw [isShadow, isShadow, opens, ShadowParts.addAll?_eq nodes alike,
    ← alike.length_eq]

theorem respectsAll_isShadowList (style : ShadowStyle) :
    RespectsAll like (isShadowList style) :=
  respectsAll_allGroups (respectsAll_isShadow style)

/-! Layers. -/

namespace Layer

open Node

theorem allAlike_items {nodes later : List Node}
    (alike : AllAlike like nodes later) :
    AllAlike like (nodes.filter fun node => !node.isSpace)
      (later.filter fun node => !node.isSpace) := by
  apply List.rel_filter _ alike
  intro node later itemAlike
  simp only [respects_isSpace itemAlike]

theorem respectsAll_isRepeatStyle : RespectsAll like isRepeatStyle := by
  intro nodes later alike
  have items := allAlike_items alike
  rw [isRepeatStyle, isRepeatStyle]
  generalize nodes.filter _ = found at items
  generalize later.filter _ = laterFound at items
  obtain _ | ⟨first, _ | ⟨second, _ | _⟩⟩ := items
  · rfl
  · simp only [respects_isKeyword _ first,
      respects_isKeywordOrVariable _ first]
  · simp only [respects_isKeywordOrVariable _ first,
      respects_isKeywordOrVariable _ second]
  · rfl

theorem respectsAll_isRepeatStyleList : RespectsAll like isRepeatStyleList :=
  respectsAll_undivided respectsAll_isRepeatStyle

theorem respects_isExtent : Respects like isExtent :=
  ((respects_isKeyword _).or respects_isLengthPercentage).or
    respects_isVariable

theorem respectsAll_isSize : RespectsAll like isSize := by
  intro nodes later alike
  obtain _ | ⟨width, _ | ⟨gap, _ | ⟨height, _ | _⟩⟩⟩ := alike
  · rfl
  · exact respects_isExtent width
  · rfl
  · simp only [isSize, respects_isExtent width, respects_isSpace gap,
      respects_isExtent height]
  · rfl

theorem respectsAll_isFit : RespectsAll like isFit := by
  intro nodes later alike
  obtain _ | ⟨only, _ | _⟩ := alike
  · rfl
  · exact respects_isKeyword _ only
  · rfl

theorem respectsAll_isSizeList : RespectsAll like isSizeList := by
  intro nodes later alike
  simp only [isSizeList, respectsAll_isFit alike,
    any_eq_of_forall₂ respects_isSlash alike,
    respectsAll_allGroups respectsAll_isSize alike]

end Layer

/-! Motion. -/

namespace Node

@[simp] theorem respects_isTimingFunction : Respects like isTimingFunction := by
  refine (respects_isKeyword _).or (Signature.respects_anyFits ?_)
  simp [Easing.signatures]

@[simp] theorem respects_isIterationCount : Respects like isIterationCount :=
  (respects_isKeyword _).or respects_isNumber

@[simp] theorem respects_isAnimationName : Respects like isAnimationName :=
  (respects_isKeyword _).or respects_isCustomIdentifier

@[simp] theorem respects_isAnimatableFeature :
    Respects like isAnimatableFeature :=
  (respects_isKeyword _).or respects_isCustomIdentifier

end Node

/-! Properties. -/

namespace Grammar

@[simp] theorem respects_keywords (set : List String) :
    (keywords set).Respects like := by
  simp [keywords, Respects, ItemRule.Respects]

@[simp] theorem respects_item {accepts : Node → Bool} :
    (item accepts).Respects like ↔ Node.Respects like accepts := by
  simp [item, Respects, ItemRule.Respects]

@[simp] theorem respects_either {rules : List ItemRule} :
    (either rules).Respects like ↔ ItemRule.EachRespects like rules := by
  simp [either, Respects, ItemRule.Respects]

@[simp] theorem respects_commaList {rule : ItemRule} :
    (commaList rule).Respects like ↔ rule.Respects like := by
  simp [commaList, Respects]

@[simp] theorem respects_spaceList {rule : ItemRule} :
    (spaceList rule).Respects like ↔ rule.Respects like := by
  simp [spaceList, Respects]

@[simp] theorem respects_spaceListUpTo {max : Nat} {rule : ItemRule} :
    (spaceListUpTo max rule).Respects like ↔ rule.Respects like := by
  simp [spaceListUpTo, Respects]

@[simp] theorem respects_looseSpaceList {rule : ItemRule} :
    (looseSpaceList rule).Respects like ↔ rule.Respects like := by
  simp [looseSpaceList, Respects]

@[simp] theorem respects_oneOf {alternatives : List Grammar} :
    (oneOf alternatives).Respects like ↔ EachRespects like alternatives := by
  simp [Respects]

end Grammar

namespace Property

theorem respects_layout :
    ∀ family ∈ layout, family.grammar.Respects like := by
  simp [layout, Grammar.EachRespects, ItemRule.EachRespects, ItemRule.Respects]

theorem respects_flex :
    ∀ family ∈ flex, family.grammar.Respects like := by
  simp [flex]

theorem respects_surface :
    ∀ family ∈ surface, family.grammar.Respects like := by
  simp [surface, Grammar.EachRespects, ItemRule.EachRespects, ItemRule.Respects,
    Grammar.respects_whole, respectsAll_isPosition, respectsAll_isPositionList,
    Layer.respectsAll_isRepeatStyleList, Layer.respectsAll_isSizeList,
    respectsAll_isShadowList, respectsVerdict_imageVerdict]

theorem respects_typography :
    ∀ family ∈ typography, family.grammar.Respects like := by
  simp [typography, Grammar.EachRespects, ItemRule.EachRespects,
    ItemRule.Respects, Grammar.respects_whole, respectsAll_isShadowList]

theorem respects_motion :
    ∀ family ∈ motion, family.grammar.Respects like := by
  simp [motion, Grammar.EachRespects, ItemRule.EachRespects, ItemRule.Respects,
    Grammar.respects_whole, respectsAll_isPosition]

theorem respects_interface :
    ∀ family ∈ interface, family.grammar.Respects like := by
  simp [interface, Grammar.EachRespects, ItemRule.EachRespects,
    ItemRule.Respects, Grammar.respects_whole, respectsAll_isPosition,
    respectsAll_isPositionList]

theorem respects_families :
    ∀ family ∈ families, family.grammar.Respects like := by
  intro family member
  simp only [families, List.mem_append] at member
  obtain ((((inLayout | inFlex) | inSurface) | inTypography) | inMotion) |
    inInterface := member
  · exact respects_layout family inLayout
  · exact respects_flex family inFlex
  · exact respects_surface family inSurface
  · exact respects_typography family inTypography
  · exact respects_motion family inMotion
  · exact respects_interface family inInterface

theorem respects_of_grammar? {property : String} {grammar : Grammar}
    (found : grammar? property = some grammar) : grammar.Respects like := by
  obtain ⟨family, isFamily, rfl⟩ := Option.map_eq_some_iff.mp found
  exact respects_families family (List.mem_of_find?_eq_some isFamily)

theorem check_alike_of_grammar? {property : String} {grammar : Grammar}
    (found : grammar? property = some grammar) {nodes later : List Node}
    (alike : AllAlike like nodes later) :
    (grammar.check nodes).Alike like (grammar.check later) :=
  Grammar.check_alike alike grammar (respects_of_grammar? found)

/-- How a value is laid out, its blanks, its quotes and its missing brackets,
has no part in the verdict on it. -/
theorem check_of_presentation {property : String} {grammar : Grammar}
    (found : grammar? property = some grammar) {nodes later : List Node}
    (alike : AllAlike .exact nodes later) :
    grammar.check later = grammar.check nodes :=
  (check_alike_of_grammar? found alike).eq

theorem check_of_presentation_image :
    ∃ grammar, grammar? "background-image" = some grammar ∧
      grammar.check
          [.call "image-set" "\n" [.quoted '\'' "b" true, .space "\t",
            .word "2x"] " " true,
          .divider .comma " " "", .call "element" "" [.word "id"] " " false] =
        grammar.check
          [.call "image-set" "" [.quoted '"' "a" true, .space " ",
            .word "2x"] "" true,
          .divider .comma "" " ", .call "element" "" [.word "id"] "" true] ∧
      grammar.check
          [.call "image-set" "" [.quoted '"' "a" true, .space " ",
            .word "2x"] "" true,
          .divider .comma "" " ", .call "element" "" [.word "id"] "" true] =
        .reject (.missingHash "id") := by
  have verdict : (grammar? "background-image").map (Grammar.check
      [.call "image-set" "" [.quoted '"' "a" true, .space " ",
        .word "2x"] "" true,
      .divider .comma "" " ", .call "element" "" [.word "id"] "" true]) =
        some (.reject (.missingHash "id")) := by
    decide +kernel
  obtain ⟨grammar, found, rejected⟩ := Option.map_eq_some_iff.mp verdict
  refine ⟨grammar, found, check_of_presentation found ?_, rejected⟩
  have blanks : IsBlankText " " ∧ IsBlankText "\t" := by decide +kernel
  have images : AllAlike .exact
      [.quoted '"' "a" true, .space " ", .word "2x"]
      [.quoted '\'' "b" true, .space "\t", .word "2x"] :=
    .cons .quoted (.cons (.space (.inr blanks)) (.cons (.word rfl) .nil))
  have names : AllAlike .exact [.word "id"] [.word "id"] :=
    .cons (.word rfl) .nil
  exact .cons (.call rfl images)
    (.cons .divider (.cons (.call rfl names) .nil))

/-- Neither has its letter case, numbers excepted, in whether it is accepted. -/
theorem check_eq_accept_iff_of_letterCase {property : String}
    {grammar : Grammar} (found : grammar? property = some grammar)
    {nodes later : List Node} (alike : AllAlike .caseless nodes later) :
    grammar.check later = .accept ↔ grammar.check nodes = .accept :=
  (check_alike_of_grammar? found alike).eq_accept_iff

theorem check_eq_accept_iff_of_letterCase_gradient :
    ∃ grammar, grammar? "border-image-source" = some grammar ∧
      (grammar.check
          [.call "Linear-GRADIENT" "" [.word "To", .space " ", .word "TOP",
            .divider .comma "" "", .word "#FFa", .space " ", .word "2px",
            .divider .comma "" "", .word "reD"] "" true] = .accept ↔
        grammar.check
          [.call "linear-gradient" "" [.word "to", .space " ", .word "top",
            .divider .comma "" "", .word "#ffA", .space " ", .word "2px",
            .divider .comma "" "", .word "red"] "" true] = .accept) ∧
      grammar.check
        [.call "linear-gradient" "" [.word "to", .space " ", .word "top",
          .divider .comma "" "", .word "#ffA", .space " ", .word "2px",
          .divider .comma "" "", .word "red"] "" true] = .accept := by
  have verdict : (grammar? "border-image-source").map (Grammar.check
      [.call "linear-gradient" "" [.word "to", .space " ", .word "top",
        .divider .comma "" "", .word "#ffA", .space " ", .word "2px",
        .divider .comma "" "", .word "red"] "" true]) = some .accept := by
    decide +kernel
  obtain ⟨grammar, found, accepted⟩ := Option.map_eq_some_iff.mp verdict
  refine ⟨grammar, found, check_eq_accept_iff_of_letterCase found ?_, accepted⟩
  have named : lowerCase "linear-gradient" = lowerCase "Linear-GRADIENT" :=
    lowerCase_eq_lowerCase_iff.mpr (by decide +kernel)
  have sameTo : SameWord "to" "To" :=
    .inr ⟨by decide +kernel, lowerCase_eq_lowerCase_iff.mpr (by decide +kernel)⟩
  have sameTop : SameWord "top" "TOP" :=
    .inr ⟨by decide +kernel, lowerCase_eq_lowerCase_iff.mpr (by decide +kernel)⟩
  have sameHex : SameWord "#ffA" "#FFa" :=
    .inr ⟨by decide +kernel, lowerCase_eq_lowerCase_iff.mpr (by decide +kernel)⟩
  have sameRed : SameWord "red" "reD" :=
    .inr ⟨by decide +kernel, lowerCase_eq_lowerCase_iff.mpr (by decide +kernel)⟩
  exact .cons (.call named (.cons (.word sameTo) (.cons (.space (.inl rfl))
    (.cons (.word sameTop) (.cons .divider (.cons (.word sameHex)
    (.cons (.space (.inl rfl)) (.cons (.word (.inl rfl)) (.cons .divider
    (.cons (.word sameRed) .nil)))))))))) .nil

end Property

/-! Values. -/

theorem isUniversal_of_alike {nodes later : List Node}
    (alike : AllAlike like nodes later) :
    isUniversal later = isUniversal nodes := by
  obtain _ | ⟨only, _ | _⟩ := alike
  · rfl
  · simp only [isUniversal, Node.isGlobalKeyword,
      Node.respects_isKeyword _ only, Node.respects_isVariable only]
  · rfl

/-- Only the text that a message quotes tells values that are alike apart. -/
theorem validateNodes_of_alike {nodes later : List Node}
    (alike : AllAlike .exact nodes later) (sameText : render later = render nodes)
    (property : String) :
    validateNodes property later = validateNodes property nodes := by
  have nonempty : later.isEmpty = nodes.isEmpty :=
    isEmpty_eq_of_forall₂ alike
  rw [validateNodes, validateNodes, isUniversal_of_alike alike, nonempty,
    sameText]
  cases found : Property.grammar? property with
  | none => rfl
  | some grammar =>
      have verdict := (Property.check_alike_of_grammar? found alike).eq
      simp only [verdict]

end StyleValue
