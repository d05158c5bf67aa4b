import StyleValue.Proofs.Paint.Distinct

/-! Keywords, told apart from each other and from quantities. A word is a keyword
of a list whatever the case of its letters, and no quantity is spelled like one. -/

namespace StyleValue

namespace Node

variable {node : Node} {keywords others : List String}

theorem isKeyword_iff :
    node.isKeyword keywords = true ↔
      ∃ text, node = .word text ∧
        ∃ keyword ∈ keywords, lowerCase text = lowerCase keyword := by
  cases node with
  | word text => simp [isKeyword, isWordThat, sameName]
  | space | quoted | divider | call => simp [isKeyword, isWordThat]

theorem isKeyword_append (node : Node) (keywords others : List String) :
    node.isKeyword (keywords ++ others) =
      (node.isKeyword keywords || node.isKeyword others) := by
  cases node with
  | word text => exact List.any_append
  | space | quoted | divider | call => rfl

theorem isKeyword_of_subset (subset : keywords ⊆ others)
    (isKeyword : node.isKeyword keywords = true) :
    node.isKeyword others = true := by
  obtain ⟨text, rfl, keyword, member, sameCase⟩ := isKeyword_iff.mp isKeyword
  exact isKeyword_iff.mpr ⟨text, rfl, keyword, subset member, sameCase⟩

theorem isKeyword_eq_false
    (apart : ∀ keyword ∈ keywords, ∀ other ∈ others,
      sameName keyword other = false)
    (isKeyword : node.isKeyword keywords = true) :
    node.isKeyword others = false := by
  obtain ⟨text, rfl, keyword, member, sameCase⟩ := isKeyword_iff.mp isKeyword
  rw [Bool.eq_false_iff]
  intro isOther
  obtain ⟨_, ⟨⟩, other, isMember, otherCase⟩ := isKeyword_iff.mp isOther
  have same : sameName keyword other = true :=
    beq_iff_eq.mpr (sameCase.symm.trans otherCase)
  rw [apart keyword member other isMember] at same
  contradiction

theorem isKeyword_of_isVariable (isVariable : node.isVariable = true)
    (keywords : List String) : node.isKeyword keywords = false :=
  isWordThat_of_isVariable isVariable _

theorem isVariable_of_isKeyword (isKeyword : node.isKeyword keywords = true) :
    node.isVariable = false := by
  obtain ⟨text, rfl, -⟩ := isKeyword_iff.mp isKeyword
  rfl

theorem isKeyword_of_isSpace (isSpace : node.isSpace = true)
    (keywords : List String) : node.isKeyword keywords = false := by
  cases node with
  | space => rfl
  | word | quoted | divider | call => contradiction

theorem isKeywordOrVariable_iff :
    node.isKeywordOrVariable keywords = true ↔
      node.isKeyword keywords = true ∨ node.isVariable = true :=
  Bool.or_eq_true_iff

/-! Quantities. -/

theorem isLengthPercentage_of_isKeyword
    (notNumbers : ∀ keyword ∈ keywords, (Dimension.read? keyword).isSome = false)
    (isKeyword : node.isKeyword keywords = true) :
    node.isLengthPercentage = false := by
  obtain ⟨text, rfl, keyword, member, sameCase⟩ := isKeyword_iff.mp isKeyword
  have numeric := Quantity.isNumeric_isLength.or Quantity.isNumeric_isPercentage
  exact numeric.eq_false_of_sameCase sameCase (notNumbers keyword member)

theorem isKeyword_of_isLengthPercentage
    (notNumbers : ∀ keyword ∈ keywords, (Dimension.read? keyword).isSome = false)
    (isQuantity : node.isLengthPercentage = true) :
    node.isKeyword keywords = false := by
  rw [Bool.eq_false_iff]
  intro isKeyword
  rw [isLengthPercentage_of_isKeyword notNumbers isKeyword] at isQuantity
  contradiction

theorem isColor_of_isNumeric {numeric : String → Bool}
    (isNumeric : IsNumeric numeric)
    (isQuantity : node.isWordThat numeric = true) : node.isColor = false := by
  cases node with
  | word text => exact isNominal_isColor.eq_false isNumeric isQuantity
  | space | quoted | divider | call => contradiction

theorem isColor_of_isAngle (isAngle : node.isAngle = true) :
    node.isColor = false :=
  isColor_of_isNumeric Quantity.isNumeric_isAngle isAngle

theorem isColor_of_isLengthPercentage
    (isQuantity : node.isLengthPercentage = true) : node.isColor = false := by
  rcases Bool.or_eq_true_iff.mp isQuantity with isLength | isPercentage
  · exact isColor_of_isLength isLength
  · exact isColor_of_isNumeric Quantity.isNumeric_isPercentage isPercentage

theorem isVariable_of_isLengthPercentage
    (isQuantity : node.isLengthPercentage = true) : node.isVariable = false := by
  rw [Bool.eq_false_iff]
  intro isVariable
  rw [isLengthPercentage, isLength_of_isVariable isVariable, isPercentage,
    isWordThat_of_isVariable isVariable] at isQuantity
  contradiction

theorem isKeywordOrVariable_of_isLengthPercentage
    (notNumbers : ∀ keyword ∈ keywords, (Dimension.read? keyword).isSome = false)
    (isQuantity : node.isLengthPercentage = true) :
    node.isKeywordOrVariable keywords = false := by
  rw [isKeywordOrVariable, isKeyword_of_isLengthPercentage notNumbers isQuantity,
    isVariable_of_isLengthPercentage isQuantity]
  rfl

end Node

end StyleValue
