import StyleValue.Proofs.Grammar.Substitution

/-! Where the verdict of a grammar comes from. A choice between alternatives
adds no verdict of its own to theirs but a mismatch, so a verdict that says more
is one of a grammar that is no choice. -/

namespace StyleValue

namespace Grammar

mutual

/-- The grammars that a grammar chooses between, choices among them opened. -/
def choices : Grammar → List Grammar
  | .single rule => [.single rule]
  | .list repetition => [.list repetition]
  | .oneOf alternatives => choicesOf alternatives
  | .custom verdict => [.custom verdict]

def choicesOf : List Grammar → List Grammar
  | [] => []
  | grammar :: rest => grammar.choices ++ choicesOf rest

end

/-- How a grammar that is no choice comes to its verdict. -/
inductive Gives (nodes : List Node) (verdict : Verdict) : Grammar → Prop
  | item {rule : ItemRule} {node : Node} (isOne : nodes = [node])
      (said : rule.verdict node = verdict) : Gives nodes verdict (.single rule)
  | several {rule : ItemRule} (notOne : nodes.length ≠ 1)
      (said : verdict = .reject .notSingle) :
      Gives nodes verdict (.single rule)
  | list {repetition : Repetition} (said : repetition.check nodes = verdict) :
      Gives nodes verdict (.list repetition)
  | custom {judge : List Node → Verdict} (said : judge nodes = verdict) :
      Gives nodes verdict (.custom judge)

variable {nodes : List Node} {verdict : Verdict}

theorem gives_single {rule : ItemRule}
    (said : (single rule).check nodes = verdict) :
    (single rule).Gives nodes verdict := by
  simp only [check] at said
  split at said
  next node => exact .item rfl said
  next notOne =>
    refine .several (fun isOne => ?_) said.symm
    obtain ⟨node, rfl⟩ := List.length_eq_one_iff.mp isOne
    exact notOne node rfl

mutual

theorem exists_gives (speaks : verdict ≠ .mismatch) :
    (grammar : Grammar) → grammar.check nodes = verdict →
      ∃ choice ∈ grammar.choices, choice.Gives nodes verdict
  | .single rule, said =>
      ⟨.single rule, List.mem_singleton_self _, gives_single said⟩
  | .list repetition, said => by
      rw [check] at said
      exact ⟨.list repetition, List.mem_singleton_self _, .list said⟩
  | .oneOf alternatives, said => by
      rw [check] at said
      obtain isLast | given := exists_gives_of_any speaks alternatives said
      · exact absurd isLast speaks
      · exact given
  | .custom judge, said => by
      rw [check] at said
      exact ⟨.custom judge, List.mem_singleton_self _, .custom said⟩

theorem exists_gives_of_any (speaks : verdict ≠ .mismatch) {last : Verdict} :
    (alternatives : List Grammar) →
      checkAny nodes last alternatives = verdict →
      verdict = last ∨
        ∃ choice ∈ choicesOf alternatives, choice.Gives nodes verdict
  | [], said => by
      rw [checkAny] at said
      exact .inl said.symm
  | grammar :: rest, said => by
      have first : ∀ {given : Verdict}, grammar.check nodes = given →
          verdict = given →
          ∃ choice ∈ choicesOf (grammar :: rest), choice.Gives nodes verdict := by
        intro given isGiven same
        obtain ⟨choice, member, gives⟩ :=
          exists_gives speaks grammar (isGiven.trans same.symm)
        exact ⟨choice, List.mem_append_left _ member, gives⟩
      rw [checkAny] at said
      split at said
      next accepted => exact .inr (first accepted said.symm)
      next rejected =>
        obtain isLast | ⟨choice, member, gives⟩ :=
          exists_gives_of_any speaks rest said
        · exact .inr (first rfl isLast)
        · exact .inr ⟨choice, List.mem_append_right _ member, gives⟩

end

mutual

theorem mem_customs_of_mem_choices {judge : List Node → Verdict} :
    (grammar : Grammar) → .custom judge ∈ grammar.choices →
      judge ∈ grammar.customs
  | .single _, member => nomatch List.mem_singleton.mp member
  | .list _, member => nomatch List.mem_singleton.mp member
  | .oneOf alternatives, member =>
      mem_customsOf_of_mem_choicesOf alternatives member
  | .custom _, member => by
      cases List.mem_singleton.mp member
      exact List.mem_singleton_self judge

theorem mem_customsOf_of_mem_choicesOf {judge : List Node → Verdict} :
    (alternatives : List Grammar) → .custom judge ∈ choicesOf alternatives →
      judge ∈ customsOf alternatives
  | [], member => nomatch member
  | grammar :: rest, member => by
      obtain inFirst | inRest := List.mem_append.mp member
      · exact List.mem_append_left _ (mem_customs_of_mem_choices grammar inFirst)
      · exact List.mem_append_right _
          (mem_customsOf_of_mem_choicesOf rest inRest)

end

/-- The rule for the items of a grammar that has one. -/
def itemRule? : Grammar → Option ItemRule
  | .single rule => some rule
  | .list repetition => some repetition.item
  | .oneOf _ => none
  | .custom _ => none

def repetition? : Grammar → Option Repetition
  | .list repetition => some repetition
  | _ => none

end Grammar

end StyleValue
