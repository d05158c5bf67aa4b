import StyleValue.Proofs.Sequence.Likeness
import StyleValue.Quantity.Item

/-! Quantities are told apart from other items by their words alone, which are
numbers. An expression also remembers the text of its last item, but asks only
whether there is one and whether it is an operator. -/

namespace StyleValue

variable {like : Likeness}

namespace Calc

/-- Nothing that is asked about the last text tells the two apart. -/
structure SameEnd (last later : String) : Prop where
  isEmpty_eq : later.isEmpty = last.isEmpty
  isOperator_eq : isOperator later = isOperator last

theorem sameEnd_refl (last : String) : SameEnd last last :=
  ⟨rfl, rfl⟩

theorem sameEnd_of_sameCase {last later : String}
    (same : lowerCase last = lowerCase later) : SameEnd last later :=
  ⟨isCaseless_isEmpty.eq same, isCaseless_isOperator.eq same⟩

theorem sameEnd_of_sameWord {last later : String}
    (same : SameWord last later) : SameEnd last later :=
  ⟨isCaseless_isEmpty.respectsWords same,
    isCaseless_isOperator.respectsWords same⟩

theorem SameEnd.isDangling_eq {last later : String} (ends : SameEnd last later)
    {text laterText : String} (texts : SameEnd text laterText) :
    isDangling later laterText = isDangling last text := by
  rw [isDangling, isDangling, ends.isEmpty_eq, texts.isOperator_eq]

theorem isOperator_of_isBlankText {text : String} (blank : IsBlankText text) :
    isOperator text = false := by
  rw [Bool.eq_false_iff]
  intro found
  have isMark : text ∈ ["+", "-", "*", "/"] := List.contains_iff_mem.mp found
  have notBlank : ∀ mark ∈ ["+", "-", "*", "/"], ¬ IsBlankText mark := by
    decide
  exact notBlank text isMark blank

theorem isDangling_space {last later : String} (ends : SameEnd last later)
    {text laterText : String}
    (same : text = laterText ∨ IsBlankText text ∧ IsBlankText laterText) :
    isDangling later laterText = isDangling last text := by
  obtain rfl | ⟨blank, laterBlank⟩ := same
  · exact ends.isDangling_eq (sameEnd_refl text)
  · rw [isDangling, isDangling, isOperator_of_isBlankText blank,
      isOperator_of_isBlankText laterBlank, Bool.and_false, Bool.and_false]

theorem rel_filter_isOperator {last later : Option String}
    (related : Option.Rel SameEnd last later) :
    Option.Rel SameEnd (last.filter fun last => !isOperator last)
      (later.filter fun last => !isOperator last) := by
  cases related with
  | none => exact .none
  | some ends =>
      simp only [Option.filter_some, ends.isOperator_eq]
      split
      · exact .some ends
      · exact .none

mutual

theorem advance?_alike :
    (node : Node) → {later : Node} → node.Alike like later →
      {last laterLast : String} → SameEnd last laterLast →
        Option.Rel SameEnd (advance? last node) (advance? laterLast later)
  | .word text, _, .word same, last, laterLast, ends => by
      have words := like.sameWord same
      have texts := sameEnd_of_sameWord words
      rw [advance?, advance?, ends.isDangling_eq texts,
        respectsWords_isWord words]
      split
      · exact .some texts
      · exact .none
  | .space text, _, .space same, last, laterLast, ends => by
      rw [advance?, advance?, isDangling_space ends same]
      split
      · exact .none
      · exact .some ends
  | .quoted _ _ _, _, .quoted, last, laterLast, _ => by
      rw [advance?, advance?]
      exact .none
  | .divider kind _ _, _, .divider, last, laterLast, ends => by
      have texts := sameEnd_refl kind.toChar.toString
      rw [advance?, advance?, ends.isDangling_eq texts]
      split
      · exact .none
      · exact .some texts
  | .call name _ args _ _, _, .call named inside, last, laterLast, ends => by
      have same := like.sameCase named
      have texts := sameEnd_of_sameCase same
      have further :=
        advanceAll?_alike args inside (sameEnd_refl "")
      rw [advance?, advance?, ends.isDangling_eq texts, sameName, sameName,
        ← same, texts.isEmpty_eq, isEmpty_eq_of_forall₂ inside]
      split
      · exact .none
      split
      · exact .some texts
      split
      · exact rel_filter_isOperator further
      · exact .none

theorem advanceAll?_alike :
    (nodes : List Node) → {later : List Node} → AllAlike like nodes later →
      {last laterLast : String} → SameEnd last laterLast →
        Option.Rel SameEnd (advanceAll? last nodes)
          (advanceAll? laterLast later)
  | [], _, .nil, last, laterLast, ends => by
      rw [advanceAll?, advanceAll?]
      exact .some ends
  | node :: rest, _, .cons itemAlike restAlike, last, laterLast, ends => by
      have step := advance?_alike node itemAlike ends
      rw [advanceAll?, advanceAll?]
      generalize advance? last node = next at step
      generalize advance? laterLast _ = laterNext at step
      cases step with
      | some ends => exact advanceAll?_alike rest restAlike ends
      | none => exact .none

end

theorem respectsAll_isExpression :
    RespectsAll like fun args =>
      !args.isEmpty && (advanceAll? "" args).any fun last => !isOperator last := by
  intro args later alike
  have run := advanceAll?_alike args alike (sameEnd_refl "")
  simp only [isEmpty_eq_of_forall₂ alike]
  generalize advanceAll? "" args = last at run
  generalize advanceAll? "" later = laterLast at run
  cases run with
  | none => rfl
  | some ends => simp only [Option.any_some, ends.isOperator_eq]

end Calc

namespace Node

open Quantity

@[simp] theorem respects_isCalc : Respects like isCalc :=
  respects_anyArgs Calc.respectsAll_isExpression _

@[simp] theorem respects_isInteger : Respects like isInteger :=
  respects_isWordThat isNumeric_isInteger.respectsWords

@[simp] theorem respects_isNumber : Respects like isNumber :=
  respects_isWordThat isNumeric_isNumber.respectsWords

@[simp] theorem respects_isPercentage : Respects like isPercentage :=
  respects_isWordThat isNumeric_isPercentage.respectsWords

@[simp] theorem respects_isLength : Respects like isLength :=
  respects_isCalc.or (respects_isWordThat isNumeric_isLength.respectsWords)

@[simp] theorem respects_isLengthPercentage : Respects like isLengthPercentage :=
  respects_isLength.or respects_isPercentage

@[simp] theorem respects_isAngle : Respects like isAngle :=
  respects_isWordThat isNumeric_isAngle.respectsWords

@[simp] theorem respects_isTime : Respects like isTime :=
  respects_isWordThat isNumeric_isTime.respectsWords

@[simp] theorem respects_isResolution : Respects like isResolution :=
  respects_isWordThat isNumeric_isResolution.respectsWords

@[simp] theorem respects_isMultiplier : Respects like isMultiplier :=
  respects_isWordThat isNumeric_isMultiplier.respectsWords

@[simp] theorem respects_isFlex : Respects like isFlex :=
  respects_isWordThat isNumeric_isFlex.respectsWords

@[simp] theorem respects_isFraction : Respects like isFraction :=
  respects_isWordThat isNumeric_isFraction.respectsWords

end Node

end StyleValue
