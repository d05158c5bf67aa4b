import StyleValue.Paint.Color
import StyleValue.Proofs.Sequence.Substitution
import StyleValue.Proofs.Text.LetterCase

/-! Lengths, colors, variables and keywords are told apart by how they start: a
length that is a word starts with a number, and no name of a color and no
hexadecimal color does; calls are told apart by their names. -/

namespace StyleValue

/-- The test passes over every text that starts with a number. -/
def IsNominal (test : String → Bool) : Prop :=
  ∀ text, test text = true → (Dimension.read? text).isSome = false

theorem IsNominal.or {first second : String → Bool} (nominal : IsNominal first)
    (nominal' : IsNominal second) :
    IsNominal fun text => first text || second text := by
  intro text passed
  exact (Bool.or_eq_true_iff.mp passed).elim (nominal text) (nominal' text)

theorem IsNominal.eq_false {test numeric : String → Bool}
    (nominal : IsNominal test) (isNumeric : IsNumeric numeric) {text : String}
    (isNumber : numeric text = true) : test text = false := by
  rw [Bool.eq_false_iff]
  intro passed
  have starts := isNumeric text isNumber
  rw [nominal text passed] at starts
  contradiction

theorem isNominal_anySameName {names : List String}
    (notNumbers : ∀ name ∈ names, (Dimension.read? name).isSome = false) :
    IsNominal fun text => names.any (sameName text) := by
  intro text passed
  obtain ⟨name, member, named⟩ := List.any_eq_true.mp passed
  have sameCase : lowerCase text = lowerCase name := beq_iff_eq.mp named
  rw [← Dimension.isCaseless_isSome_read?.eq sameCase]
  exact notNumbers name member

namespace Color

theorem isNominal_isHex : IsNominal isHex := by
  intro text passed
  rw [Dimension.isSome_read?]
  unfold isHex at passed
  split at passed
  next digits isHash => rw [isHash]; rfl
  next => contradiction

theorem isNominal_ofName? : IsNominal fun name => (Rgb.ofName? name).isSome := by
  intro name passed
  obtain ⟨entry, member, named⟩ := List.lookup_isSome_iff.mp passed
  have notNumbers : ∀ entry ∈ Rgb.named,
      (Dimension.read? entry.1).isSome = false := by
    simp only [Dimension.isSome_read?]
    decide +kernel
  have caseless := Dimension.isCaseless_isSome_read? name
  rw [beq_iff_eq.mp named] at caseless
  exact caseless.symm.trans (notNumbers entry member)

end Color

namespace Node

theorem isColor_word (text : String) :
    (Node.word text).isColor =
      (Color.isHex text || (Rgb.ofName? text).isSome ||
        ["transparent", "currentcolor"].any (sameName text)) :=
  Bool.or_false _

theorem isNominal_isColor : IsNominal fun text => (Node.word text).isColor := by
  simp only [isColor_word]
  exact (Color.isNominal_isHex.or Color.isNominal_ofName?).or
    (isNominal_anySameName (by decide +kernel))

theorem isCaseless_isColor :
    IsCaseless fun text => (Node.word text).isColor := by
  intro text
  have isNamed := isCaseless_ofName? text
  have isKeyword := isCaseless_anySameName ["transparent", "currentcolor"] text
  simp only [isColor_word, isCaseless_isHex text] at isNamed isKeyword ⊢
  rw [isNamed, isKeyword]

theorem isColor_of_isCallTo {node : Node} {names : List String}
    (isCall : node.isCallTo names = true)
    (apart : ∀ signature ∈ Color.signatures, ∀ name ∈ names,
      ∀ other ∈ signature.names, sameName name other = false) :
    node.isColor = false := by
  have notColor : ∀ signature ∈ Color.signatures,
      signature.fits node = false := by
    intro signature member
    rw [Signature.fits, argsOf?_of_isCallTo isCall (apart signature member)]
    rfl
  rw [isColor, isHexColor, isNamedColor, isKeyword]
  simp only [isWordThat_of_isCallTo isCall, Bool.false_or]
  rw [List.any_eq_false]
  intro signature member
  rw [notColor signature member]
  exact Bool.false_ne_true

theorem isColor_of_isVariable {node : Node}
    (isVariable : node.isVariable = true) : node.isColor = false :=
  isColor_of_isCallTo isVariable (by decide +kernel)

theorem isCallTo_of_isCalc {node : Node} (isCalc : node.isCalc = true) :
    node.isCallTo ["calc"] = true :=
  isCallTo_of_any isCalc

theorem isLength_of_isVariable {node : Node}
    (isVariable : node.isVariable = true) : node.isLength = false := by
  have notCalc : node.argsOf? ["calc"] = none :=
    node.argsOf?_of_isVariable isVariable (by decide +kernel)
  rw [isLength, isCalc, notCalc, isWordThat_of_isVariable isVariable]
  rfl

theorem isColor_of_isLength {node : Node} (isLength : node.isLength = true) :
    node.isColor = false := by
  cases node with
  | word text =>
      exact isNominal_isColor.eq_false Quantity.isNumeric_isLength isLength
  | space | quoted | divider => contradiction
  | call name before args after closed =>
      have isCalc : (Node.call name before args after closed).isCalc = true := by
        simpa [Node.isLength, isWordThat] using isLength
      exact isColor_of_isCallTo (isCallTo_of_isCalc isCalc) (by decide +kernel)

/-- A keyword is a word, and not one of those that are lengths or colors. -/
theorem not_isKeyword {node : Node} {keywords : List String}
    (apart : ∀ keyword ∈ keywords, (Dimension.read? keyword).isSome = false ∧
      (Node.word keyword).isColor = false)
    (isKeyword : node.isKeyword keywords = true) :
    node.isLength = false ∧ node.isColor = false ∧ node.isVariable = false := by
  cases node with
  | word text =>
      obtain ⟨keyword, member, named⟩ := List.any_eq_true.mp isKeyword
      have sameCase : lowerCase text = lowerCase keyword := beq_iff_eq.mp named
      obtain ⟨notNumber, notColor⟩ := apart keyword member
      refine ⟨?_, ?_, rfl⟩
      · exact Quantity.isNumeric_isLength.eq_false_of_sameCase sameCase notNumber
      · exact (isCaseless_isColor.eq sameCase).symm.trans notColor
  | space | quoted | divider | call => contradiction

end Node

end StyleValue
