import StyleValue.Name.CounterStyle
import StyleValue.Paint.Box
import StyleValue.Proofs.Geometry.Likeness
import StyleValue.Proofs.Grammar.Likeness

/-! Colors, gradients and images. An image may hold images, so the argument
for them goes by the nesting of calls; the one fault that an image can have
quotes a word. -/

namespace StyleValue

variable {like : Likeness}

open Node (Respects)

/-! Colors and lines. -/

namespace Node

theorem respects_isChannel : Respects like Color.isChannel :=
  respects_isInteger.or respects_isPercentage

@[simp] theorem respects_isColor : Respects like isColor := by
  have words : Respects like fun node =>
      node.isHexColor || node.isNamedColor ||
        node.isKeyword ["transparent", "currentcolor"] :=
    ((respects_isWordThat isCaseless_isHex.respectsWords).or
      (respects_isWordThat isCaseless_ofName?.respectsWords)).or
      (respects_isKeyword _)
  refine words.or (Signature.respects_anyFits ?_)
  simp [Color.signatures, respects_isChannel]

@[simp] theorem respects_isLineStyle : Respects like isLineStyle :=
  respects_isKeyword _

@[simp] theorem respects_isLineWidth : Respects like isLineWidth :=
  respects_isLength.or (respects_isKeyword _)

end Node

/-! Gradients. -/

namespace Gradient

open Node

theorem respectsAll_isColorStop : RespectsAll like isColorStop := by
  intro nodes later alike
  obtain _ | ⟨color, _ | ⟨gap, _ | ⟨place, _ | _⟩⟩⟩ := alike
  · rfl
  · exact respects_isColor color
  · rfl
  · simp only [isColorStop, respects_isColor color, respects_isSpace gap,
      respects_isLengthPercentage place]
  · rfl

theorem stops_alike {isDefinition : List Node → Bool}
    (respects : RespectsAll like isDefinition) {groups later : List (List Node)}
    (alike : List.Forall₂ (AllAlike like) groups later) :
    List.Forall₂ (AllAlike like)
      (if groups.head?.any isDefinition then groups.tail else groups)
      (if later.head?.any isDefinition then later.tail else later) := by
  cases alike with
  | nil => exact .nil
  | @cons group laterGroup _ _ first rest =>
      have same := respects first
      cases found : isDefinition group with
      | true => simpa [same, found] using rest
      | false => simpa [same, found] using And.intro first rest

theorem respectsAll_hasColorStops {isDefinition : List Node → Bool}
    (respects : RespectsAll like isDefinition) :
    RespectsAll like (hasColorStops isDefinition) := by
  intro args later alike
  have stops := stops_alike respects alike.commaGroups
  rw [hasColorStops, hasColorStops, ← stops.length_eq,
    all_eq_of_forall₂ respectsAll_isColorStop stops]

theorem respectsAll_isDirection : RespectsAll like isDirection := by
  intro nodes later alike
  obtain _ | ⟨mark, _ | ⟨first, _ | ⟨second, _ | _⟩⟩⟩ := alike
  · rfl
  · rfl
  · simp only [isDirection, respects_isKeyword _ mark,
      respects_isKeyword _ first]
  · simp only [isDirection, respects_isKeyword _ mark,
      respects_isKeyword _ first, respects_isKeyword _ second]
  · rfl

theorem respectsAll_isLinearDefinition : RespectsAll like isLinearDefinition := by
  intro nodes later alike
  obtain _ | ⟨angle, _ | ⟨next, rest⟩⟩ := alike
  · rfl
  · exact respects_isAngle angle
  · exact respectsAll_anySpacedItems respectsAll_isDirection
      (.cons angle (.cons next rest))

theorem respectsAll_isRadialSize : RespectsAll like isRadialSize := by
  have shape : Respects like isShape := respects_isKeyword _
  have extent : Respects like isExtent := respects_isKeyword _
  have circle : Respects like isCircle := respects_isKeyword _
  have ellipse : Respects like isEllipse := respects_isKeyword _
  intro nodes later alike
  obtain _ | ⟨first, _ | ⟨second, _ | ⟨third, _ | _⟩⟩⟩ := alike
  · rfl
  · simp only [isRadialSize, shape first, extent first,
      respects_isLength first]
  · simp only [isRadialSize, shape first, extent first, circle first,
      respects_isLength first, respects_isLengthPercentage first,
      shape second, extent second, circle second, respects_isLength second,
      respects_isLengthPercentage second]
  · simp only [isRadialSize, ellipse first, ellipse third,
      respects_isLengthPercentage first, respects_isLengthPercentage second,
      respects_isLengthPercentage third]
  · rfl

theorem respectsAll_isRadialDefinition :
    RespectsAll like isRadialDefinition := by
  apply Placement.respectsAll_anyRead
  intro placement later alike
  simp only [isEmpty_eq_of_forall₂ alike.extent, alike.isPlaced_eq,
    respectsAll_anySpacedItems respectsAll_isRadialSize alike.extent]

end Gradient

theorem Node.respects_isGradient : Respects like Node.isGradient :=
  (Node.respects_anyArgs
    (Gradient.respectsAll_hasColorStops
      Gradient.respectsAll_isLinearDefinition) _).or
    (Node.respects_anyArgs
      (Gradient.respectsAll_hasColorStops
        Gradient.respectsAll_isRadialDefinition) _)

/-! References to elements. -/

theorem isCaseless_head?_hash :
    IsCaseless fun text => text.toList.head? == some '#' := by
  intro text
  simp only [toList_lowerCase, List.head?_map]
  cases text.toList.head? with
  | none => rfl
  | some c =>
      simp only [Option.map_some, Option.some_beq_some]
      exact beq_toLower '#' c rfl

theorem isCaseless_isValid_tail :
    IsCaseless fun text =>
      Identifier.isValid (String.ofList text.toList.tail) := by
  intro text
  simp only [toList_lowerCase, ← List.map_tail,
    Identifier.isValid_ofList_map_toLower]

theorem Node.idVerdict_word (text : String) :
    (Node.word text).idVerdict =
      if text.toList.head? == some '#' then
        if Identifier.isValid (String.ofList text.toList.tail) then .accept
        else .reject (.badIdentifier text)
      else .reject (.missingHash text) := by
  rw [idVerdict]
  cases text.toList with
  | nil => rfl
  | cons c name =>
      by_cases isHash : c = '#'
      · subst c
        rfl
      · simp [isHash]

theorem respectsVerdict_idVerdict : RespectsVerdict like Node.idVerdict := by
  intro node later alike
  cases alike with
  | word same =>
      have words := like.sameWord same
      simp only [Node.idVerdict_word,
        isCaseless_head?_hash.respectsWords words,
        isCaseless_isValid_tail.respectsWords words]
      split
      · split
        · exact .accept
        · exact .reject (.badIdentifier same)
      · exact .reject (.missingHash same)
  | space | quoted | divider | call => exact .mismatch

/-! Images. -/

namespace Image

structure Argument.Alike (like : Likeness) (argument later : Argument) :
    Prop where
  node : argument.node.Alike like later.node
  isImage_eq : later.isImage = argument.isImage

theorem Argument.Alike.isSource_eq {argument later : Argument}
    (alike : argument.Alike like later) :
    later.isSource = argument.isSource := by
  rw [isSource, isSource, alike.isImage_eq, Node.respects_isQuoted alike.node]

theorem isFadeOperand_eq ⦃argument later : Argument⦄
    (alike : argument.Alike like later) :
    isFadeOperand later = isFadeOperand argument := by
  rw [isFadeOperand, isFadeOperand, alike.isImage_eq,
    Node.respects_isPercentage alike.node]

theorem isFadeEnd_eq ⦃argument later : Argument⦄
    (alike : argument.Alike like later) :
    isFadeEnd later = isFadeEnd argument := by
  rw [isFadeEnd, isFadeEnd, alike.isImage_eq, Node.respects_isColor alike.node]

variable {arguments later : List Argument}
  (alike : List.Forall₂ (Argument.Alike like) arguments later)

include alike

theorem isFallback_eq : isFallback later = isFallback arguments := by
  obtain _ | ⟨source, _ | ⟨comma, _ | ⟨color, _ | _⟩⟩⟩ := alike
  · rfl
  · rw [isFallback, isFallback, source.isSource_eq,
      Node.respects_isColor source.node]
  · rfl
  · rw [isFallback, isFallback, source.isSource_eq,
      Node.respects_isComma comma.node, Node.respects_isColor color.node]
  · rfl

theorem isOption_eq : isOption later = isOption arguments := by
  obtain _ | ⟨source, _ | ⟨gap, _ | ⟨density, _ | _⟩⟩⟩ := alike
  · rfl
  · rfl
  · rfl
  · rw [isOption, isOption, source.isSource_eq,
      Node.respects_isCallTo _ source.node, Node.respects_isSpace gap.node,
      Node.respects_isResolution density.node,
      Node.respects_isMultiplier density.node]
  · rfl

theorem isSet_eq : isSet later = isSet arguments := by
  have options ⦃group laterGroup : List Argument⦄
      (groupAlike : List.Forall₂ (Argument.Alike like) group laterGroup) :
      isOption laterGroup = isOption group := isOption_eq groupAlike
  refine all_eq_of_forall₂ options (forall₂_groupsBy ?_ alike)
  intro argument laterArgument argumentAlike
  exact Node.respects_isComma argumentAlike.node

theorem isCrossFade_eq : isCrossFade later = isCrossFade arguments := by
  have operands := map_eq_of_forall₂ isFadeOperand_eq alike
  have ends := map_eq_of_forall₂ isFadeEnd_eq alike
  have first := congrArg (·[0]?.any id) operands
  have third := congrArg (·[2]?.all id) operands
  have fifth := congrArg (·[4]?.all id) ends
  simp only [List.getElem?_map, Option.any_map, Option.all_map,
    id_eq] at first third fifth
  rw [isCrossFade, isCrossFade, first, third, fifth]

theorem elementVerdict_alike :
    (elementVerdict arguments).Alike like (elementVerdict later) := by
  obtain _ | ⟨id, _ | _⟩ := alike
  · exact .mismatch
  · exact respectsVerdict_idVerdict id.node
  · exact .mismatch

theorem callVerdict_alike {name laterName : String}
    (named : lowerCase name = lowerCase laterName) {isPlain laterIsPlain : Bool}
    (same : laterIsPlain = isPlain) :
    (callVerdict name arguments isPlain).Alike like
      (callVerdict laterName later laterIsPlain) := by
  simp only [callVerdict, sameName, named, isFallback_eq alike, isSet_eq alike,
    isCrossFade_eq alike, same]
  by_cases isElement : (lowerCase laterName == lowerCase "element") = true
  · rw [if_pos isElement, if_pos isElement]
    exact elementVerdict_alike alike
  · rw [if_neg isElement, if_neg isElement]
    exact .ofBool rfl

end Image

mutual

theorem Node.imageVerdict_alike :
    (node : Node) → {later : Node} → node.Alike like later →
      node.imageVerdict.Alike like later.imageVerdict
  | .call name before args after closed, _, .call named inside => by
      rw [Node.imageVerdict, Node.imageVerdict]
      refine Image.callVerdict_alike (Image.markArguments_alike args inside)
        (like.sameCase named) ?_
      exact Node.respects_isUrl.or Node.respects_isGradient
        (.call named inside)
  | .word _, _, .word _ => .mismatch
  | .space _, _, .space _ => .mismatch
  | .quoted _ _ _, _, .quoted => .mismatch
  | .divider _ _ _, _, .divider => .mismatch

theorem Image.markArguments_alike :
    (nodes : List Node) → {later : List Node} → AllAlike like nodes later →
      List.Forall₂ (Image.Argument.Alike like) (Image.markArguments nodes)
        (Image.markArguments later)
  | [], _, .nil => .nil
  | node :: rest, _, .cons itemAlike restAlike => by
      have verdicts := Node.imageVerdict_alike node itemAlike
      rw [Image.markArguments, Image.markArguments]
      exact .cons ⟨itemAlike, verdicts.isAccept_eq⟩
        (Image.markArguments_alike rest restAlike)

end

theorem respectsVerdict_imageVerdict :
    RespectsVerdict like Node.imageVerdict :=
  fun node _ alike => Node.imageVerdict_alike node alike

theorem Node.respects_isImage : Respects like Node.isImage :=
  fun _ _ alike => (respectsVerdict_imageVerdict alike).isAccept_eq

/-! Counter styles. -/

namespace CounterStyle

theorem respects_isSymbol : Respects like isSymbol :=
  Node.respects_isQuoted.or Node.respects_isImage

theorem respectsAll_isSymbols : RespectsAll like isSymbols := by
  intro args later alike
  have items := alike.spacedItems?
  rw [isSymbols, isSymbols]
  generalize spacedItems? args = found at items
  generalize spacedItems? later = laterFound at items
  cases items with
  | none => rfl
  | some itemsAlike =>
      cases itemsAlike with
      | nil => rfl
      | cons first rest =>
          simp only [List.any_cons, Node.respects_isKeyword _ first,
            respects_isSymbol first,
            all_eq_of_forall₂ respects_isSymbol rest,
            any_eq_of_forall₂ respects_isSymbol rest]

end CounterStyle

@[simp] theorem Node.respects_isCounterStyle :
    Respects like Node.isCounterStyle :=
  (Node.respects_isCustomIdentifier.or (Node.respects_isKeyword _)).or
    (Node.respects_anyArgs CounterStyle.respectsAll_isSymbols _)

end StyleValue
