import StyleValue.Grammar.Grammar
import StyleValue.Proofs.Sequence.Substitution

/-! What a grammar accepts with an item it accepts with a variable in the place
of the item. -/

namespace StyleValue

theorem Verdict.isAccept_iff {verdict : Verdict} :
    verdict.isAccept = true ↔ verdict = .accept := by
  cases verdict with
  | accept => exact iff_of_true rfl rfl
  | mismatch | reject => exact iff_of_false nofun nofun

namespace Repetition

variable (repetition : Repetition)

theorem itemVerdict_of_mayBecome {node later : Node}
    (becomes : node.MayBecome later)
    (accepted : repetition.itemVerdict node = .accept) :
    repetition.itemVerdict later = .accept := by
  cases becomes with
  | same => exact accepted
  | replaced _ _ isVariable => rw [itemVerdict, if_pos isVariable]

theorem walk_of_isSubstituted {nodes later : List Node}
    (substituted : IsSubstituted nodes later)
    (accepted : repetition.walk nodes = .accept) :
    repetition.walk later = .accept := by
  fun_induction repetition.walk nodes generalizing later with
  | case1 =>
      cases substituted with
      | nil => rfl
  | case2 node =>
      obtain _ | ⟨becomes, ⟨⟩⟩ := substituted
      exact repetition.itemVerdict_of_mayBecome becomes accepted
  | case3 node gap rest itemAccepted isGap ih =>
      obtain _ | ⟨becomes, _ | ⟨gapBecomes, restSubstituted⟩⟩ := substituted
      rw [walk, repetition.itemVerdict_of_mayBecome becomes itemAccepted]
      simp only [gapBecomes.accepts_eq, isGap, if_true]
      exact ih restSubstituted accepted
  | case4 => contradiction
  | case5 node gap rest rejected => exact absurd accepted rejected

theorem check_of_isSubstituted {nodes later : List Node}
    (substituted : IsSubstituted nodes later)
    (accepted : repetition.check nodes = .accept) :
    repetition.check later = .accept := by
  rw [check, substituted.length_eq] at accepted
  rw [check]
  split at accepted
  · contradiction
  next isOdd =>
    rw [if_neg isOdd]
    split at accepted
    · contradiction
    next => exact repetition.walk_of_isSubstituted substituted accepted

end Repetition

namespace Grammar

theorem checkAny_eq_accept_iff {nodes : List Node} {alternatives : List Grammar}
    {last : Verdict} (notLast : last ≠ .accept) :
    checkAny nodes last alternatives = .accept ↔
      ∃ grammar ∈ alternatives, grammar.check nodes = .accept := by
  induction alternatives generalizing last with
  | nil => simp [checkAny, notLast]
  | cons grammar rest ih =>
      rw [checkAny]
      split
      next accepted => simp [accepted]
      next rejected =>
        rw [ih rejected]
        constructor
        · rintro ⟨later, member, accepted⟩
          exact ⟨later, List.mem_cons_of_mem grammar member, accepted⟩
        · rintro ⟨later, member, accepted⟩
          obtain rfl | inRest := List.mem_cons.mp member
          · exact absurd accepted rejected
          · exact ⟨later, inRest, accepted⟩

/-- The grammar keeps accepting when variables are put for items. Where the
whole value is one item nothing is said: there a variable is a value of its
own. -/
def AdmitsVariables (grammar : Grammar) : Prop :=
  ∀ ⦃nodes later : List Node⦄, IsSubstituted nodes later →
    nodes.length ≠ 1 → grammar.check nodes = .accept →
      grammar.check later = .accept

theorem admitsVariables_single (rule : ItemRule) :
    (single rule).AdmitsVariables := by
  intro nodes later _ notOne accepted
  rw [check] at accepted
  · contradiction
  · rintro node rfl
    exact notOne rfl

theorem admitsVariables_list (repetition : Repetition) :
    (list repetition).AdmitsVariables := by
  intro nodes later substituted _ accepted
  rw [check] at accepted ⊢
  exact repetition.check_of_isSubstituted substituted accepted

theorem admitsVariables_oneOf {alternatives : List Grammar}
    (allAdmit : ∀ grammar ∈ alternatives, grammar.AdmitsVariables) :
    (oneOf alternatives).AdmitsVariables := by
  intro nodes later substituted notOne accepted
  have notYet : Verdict.mismatch ≠ .accept := nofun
  rw [check, checkAny_eq_accept_iff notYet] at accepted ⊢
  obtain ⟨grammar, member, grammarAccepted⟩ := accepted
  exact ⟨grammar, member,
    allAdmit grammar member substituted notOne grammarAccepted⟩

theorem admitsVariables_custom {verdict : List Node → Verdict}
    (admits : StyleValue.AdmitsVariables fun nodes => (verdict nodes).isAccept) :
    (custom verdict).AdmitsVariables := by
  intro nodes later substituted _ accepted
  rw [check, ← Verdict.isAccept_iff] at accepted ⊢
  exact admits substituted accepted

mutual

/-- The rules of its own that a grammar has. -/
def customs : Grammar → List (List Node → Verdict)
  | .single _ => []
  | .list _ => []
  | .oneOf alternatives => customsOf alternatives
  | .custom verdict => [verdict]

def customsOf : List Grammar → List (List Node → Verdict)
  | [] => []
  | grammar :: rest => grammar.customs ++ customsOf rest

end

mutual

/-- All else in a grammar admits variables by itself. -/
theorem admitsVariables_of_customs :
    (grammar : Grammar) →
      (∀ verdict ∈ grammar.customs,
        StyleValue.AdmitsVariables fun nodes => (verdict nodes).isAccept) →
      grammar.AdmitsVariables
  | .single rule, _ => admitsVariables_single rule
  | .list repetition, _ => admitsVariables_list repetition
  | .oneOf alternatives, admits =>
      admitsVariables_oneOf (admitsVariables_of_customsOf alternatives admits)
  | .custom verdict, admits =>
      admitsVariables_custom (admits verdict (List.mem_singleton_self verdict))

theorem admitsVariables_of_customsOf :
    (alternatives : List Grammar) →
      (∀ verdict ∈ customsOf alternatives,
        StyleValue.AdmitsVariables fun nodes => (verdict nodes).isAccept) →
      ∀ grammar ∈ alternatives, grammar.AdmitsVariables
  | [], _, grammar, member => absurd member List.not_mem_nil
  | first :: rest, admits, grammar, member => by
      have firstAdmits := admitsVariables_of_customs first
        fun verdict isCustom =>
          admits verdict (List.mem_append_left _ isCustom)
      have restAdmit := admitsVariables_of_customsOf rest
        fun verdict isCustom =>
          admits verdict (List.mem_append_right _ isCustom)
      obtain isFirst | inRest := List.mem_cons.mp member
      · rw [isFirst]
        exact firstAdmits
      · exact restAdmit grammar inRest

end

end Grammar

end StyleValue
