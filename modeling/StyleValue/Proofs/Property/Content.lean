import StyleValue.Proofs.Property.Choice
import StyleValue.Proofs.Property.Layers
import StyleValue.Proofs.Tree.Remark

/-! Every layer of a valid value says something, and nothing but commas divides
the value. -/

namespace StyleValue

namespace Property

set_option maxRecDepth 2000 in
theorem all_not_takes_space (text : String) :
    ((choices.filterMap Grammar.itemRule?).all fun rule =>
      !(rule.verdict (.space text)).isAccept) = true := by
  rfl

set_option maxRecDepth 2000 in
theorem all_not_takes_divider (kind : Divider) (before after : String) :
    ((choices.filterMap Grammar.itemRule?).all fun rule =>
      !(rule.verdict (.divider kind before after)).isAccept) = true := by
  rfl

set_option maxRecDepth 2000 in
theorem all_guarded :
    ((choices.filterMap Grammar.repetition?).all fun repetition =>
      repetition.separator == .space || repetition.isStrict) = true := by
  rfl

/-- No item of a property is a space or a divider. -/
theorem isContent_of_itemRule? {choice : Grammar} (member : choice ∈ choices)
    {rule : ItemRule} (isRule : choice.itemRule? = some rule) {node : Node}
    (taken : rule.verdict node = .accept) : node.isContent = true := by
  have inRules : rule ∈ choices.filterMap Grammar.itemRule? :=
    List.mem_filterMap.mpr ⟨choice, member, isRule⟩
  have needs : Node.NeedsContent fun node => (rule.verdict node).isAccept := by
    constructor
    · intro text
      have none := List.all_eq_true.mp (all_not_takes_space text) rule inRules
      simpa using none
    · intro kind before after
      have none := List.all_eq_true.mp
        (all_not_takes_divider kind before after) rule inRules
      simpa using none
  exact needs.isContent (Verdict.isAccept_iff.mpr taken)

theorem isStrict_of_comma {repetition : Repetition}
    (member : .list repetition ∈ choices)
    (isComma : repetition.separator = .comma) : repetition.isStrict = true := by
  have inRepetitions : repetition ∈ choices.filterMap Grammar.repetition? :=
    List.mem_filterMap.mpr ⟨.list repetition, member, rfl⟩
  have guarded := List.all_eq_true.mp all_guarded repetition inRepetitions
  rw [isComma] at guarded
  exact guarded

theorem isLayered_of_test {accepts : List Node → Bool}
    (isTest : accepts ∈ [isPositionList, Layer.isRepeatStyleList,
      Layer.isSizeList, isPosition, isShadowList .box, isShadowList .text])
    {nodes : List Node} (passed : accepts nodes = true) : IsLayered nodes := by
  simp only [List.mem_cons, List.not_mem_nil, or_false] at isTest
  obtain rfl | rfl | rfl | rfl | rfl | rfl := isTest
  · rw [isPositionList_eq] at passed
    exact isLayered_of_all isLayer_of_isPosition passed
  · rw [Layer.isRepeatStyleList_eq] at passed
    exact isLayered_of_all Layer.isLayer_of_isRepeatStyle passed
  · rw [Layer.isSizeList_eq, Bool.or_eq_true_iff] at passed
    obtain fit | sizes := passed
    · exact (Layer.isLayer_of_isFit fit).isLayered
    · exact isLayered_of_all Layer.isLayer_of_isSize sizes
  · exact (isLayer_of_isPosition passed).isLayered
  · exact isLayered_of_all isLayer_of_isShadow passed
  · exact isLayered_of_all isLayer_of_isShadow passed

theorem isLayered_of_grammar? {property : String} {grammar : Grammar}
    (found : grammar? property = some grammar) {nodes : List Node}
    (nonempty : nodes ≠ []) (accepted : grammar.check nodes = .accept) :
    IsLayered nodes := by
  have speaks : Verdict.accept ≠ .mismatch := nofun
  obtain ⟨choice, member, gives⟩ :=
    exists_gives_of_grammar? found speaks accepted
  cases gives with
  | @item rule node isOne taken =>
      rw [isOne]
      exact (isLayer_singleton
        (isContent_of_itemRule? member rfl taken)).isLayered
  | several notOne isFault => contradiction
  | @list repetition checked =>
      apply Repetition.isLayered_of_check _ (isStrict_of_comma member)
        nonempty checked
      intro node item
      obtain isVariable | taken := item
      · exact Node.needsContent_isVariable.isContent isVariable
      · exact isContent_of_itemRule? member rfl
          ((ItemRule.verdict_eq_accept_iff node repetition.item).mpr taken)
  | @custom judge said =>
      obtain ⟨accepts, isTest, rfl⟩ := exists_test_of_custom member
      exact isLayered_of_test isTest (Verdict.ofBool_eq_accept_iff.mp said)

end Property

theorem isLayered_of_isUniversal {nodes : List Node} :
    isUniversal nodes = true → IsLayered nodes := by
  fun_cases isUniversal nodes with
  | case1 node =>
      intro universal
      have needs : Node.NeedsContent fun node =>
          node.isGlobalKeyword || node.isVariable :=
        (Node.needsContent_isKeyword _).or Node.needsContent_isVariable
      exact (isLayer_singleton (needs.isContent universal)).isLayered
  | case2 =>
      intro universal
      contradiction

theorem isLayered_of_validateNodes {property : String} {nodes : List Node}
    (isValid : validateNodes property nodes = .valid) : IsLayered nodes := by
  obtain universal | ⟨nonempty, grammar, found, accepted⟩ :=
    validateNodes_eq_valid_iff.mp isValid
  · exact isLayered_of_isUniversal universal
  · exact Property.isLayered_of_grammar? found nonempty accepted

theorem not_isLayered_of_spaces {nodes : List Node}
    (spaces : ∀ node ∈ nodes, node.isSpace = true) : ¬ IsLayered nodes := by
  intro layered
  obtain ⟨node, member, isContent⟩ := layered.exists_isContent
  have isSpace := spaces node member
  cases node with
  | space => contradiction
  | word | quoted | divider | call => contradiction

/-- A valid value has no slash or colon outside its calls, and something is said
between any two of its commas, before the first and after the last. So what is
only blanks and comments is no valid value, and neither is one that starts or
ends with a comma or has two of them in a row. -/
theorem validateNodes_layers (property : String) :
    (∀ nodes, validateNodes property nodes = .valid →
      (∀ node ∈ nodes, node.isSlash = false ∧ node.isColon = false) ∧
        ∀ group ∈ commaGroups nodes, ∃ node ∈ group, node.isContent = true) ∧
      (∀ text, IsRemark text.toList → validate property text ≠ .valid) ∧
      ∀ gap : List Node, (∀ node ∈ gap, node.isSpace = true) →
        ∀ comma later : Node, comma.isComma = true → later.isComma = true →
          ∀ before after : List Node,
            validateNodes property (gap ++ comma :: after) ≠ .valid ∧
              validateNodes property (before ++ comma :: gap) ≠ .valid ∧
              validateNodes property
                (before ++ comma :: (gap ++ later :: after)) ≠ .valid := by
  refine ⟨?_, ?_, ?_⟩
  · intro nodes isValid
    have layered := isLayered_of_validateNodes isValid
    refine ⟨?_, fun group member => (layered group member).filled⟩
    intro node member
    exact ⟨layered.isDividerOf_eq_false member .slash nofun,
      layered.isDividerOf_eq_false member .colon nofun⟩
  · intro text remark isValid
    exact not_isLayered_of_spaces (forall_isSpace_parse remark)
      (isLayered_of_validateNodes isValid)
  · intro gap spaces comma later isComma isLater before after
    have nothing := not_isLayered_of_spaces spaces
    refine ⟨?_, ?_, ?_⟩
    · intro isValid
      have layered := isLayered_of_validateNodes isValid
      exact nothing ((isLayered_append_cons isComma).mp layered).1
    · intro isValid
      have layered := isLayered_of_validateNodes isValid
      exact nothing ((isLayered_append_cons isComma).mp layered).2
    · intro isValid
      have layered := isLayered_of_validateNodes isValid
      have further := ((isLayered_append_cons isComma).mp layered).2
      exact nothing ((isLayered_append_cons isLater).mp further).1

theorem validateNodes_layers_repeat :
    validateNodes "background-repeat"
        [.word "round", .space " ", .word "space", .divider .comma "" " ",
          .word "repeat-x"] = .valid ∧
      (∃ node ∈ [Node.word "round", .space " ", .word "space"],
        node.isContent = true) ∧
      IsRemark " /* none */ ".toList ∧
      validate "background-repeat" " /* none */ " ≠ .valid ∧
      validateNodes "background-repeat"
        [.word "round", .divider .comma "" "", .divider .comma "" "",
          .word "repeat-x"] ≠ .valid := by
  obtain ⟨layers, remarks, commas⟩ := validateNodes_layers "background-repeat"
  have isValid : validateNodes "background-repeat"
      [.word "round", .space " ", .word "space", .divider .comma "" " ",
        .word "repeat-x"] = .valid := by
    decide +kernel
  have remark : IsRemark " /* none */ ".toList := by
    apply IsRemark.blank rfl
    apply @IsRemark.comment " none ".toList _ (by decide +kernel)
    exact .blank rfl .done
  refine ⟨isValid, (layers _ isValid).2 _ List.mem_cons_self, remark,
    remarks _ remark, ?_⟩
  exact (commas [] nofun (.divider .comma "" "") (.divider .comma "" "")
    rfl rfl [.word "round"] [.word "repeat-x"]).2.2

end StyleValue
