import StyleValue.Grammar.Grammar
import StyleValue.Proofs.Sequence.Likeness

/-! Grammars whose tests do not tell items that are alike apart. Their verdicts
on sequences that are alike differ at most in the word that a fault quotes. -/

namespace StyleValue

variable {like : Likeness}

/-! Verdicts. -/

inductive Fault.Alike (like : Likeness) : Fault → Fault → Prop
  | notSingle : Alike like .notSingle .notSingle
  | tooMany (max : Nat) : Alike like (.tooMany max) (.tooMany max)
  | missingHash {word later : String} (same : like.words word later) :
      Alike like (.missingHash word) (.missingHash later)
  | badIdentifier {word later : String} (same : like.words word later) :
      Alike like (.badIdentifier word) (.badIdentifier later)

inductive Verdict.Alike (like : Likeness) : Verdict → Verdict → Prop
  | accept : Alike like .accept .accept
  | mismatch : Alike like .mismatch .mismatch
  | reject {fault later : Fault} (alike : fault.Alike like later) :
      Alike like (.reject fault) (.reject later)

theorem Fault.Alike.eq {fault later : Fault}
    (alike : fault.Alike .exact later) : later = fault := by
  cases alike with
  | notSingle => rfl
  | tooMany => rfl
  | missingHash same => exact congrArg Fault.missingHash (Eq.symm same)
  | badIdentifier same => exact congrArg Fault.badIdentifier (Eq.symm same)

namespace Verdict.Alike

variable {verdict later : Verdict}

theorem eq (alike : verdict.Alike .exact later) : later = verdict := by
  cases alike with
  | accept => rfl
  | mismatch => rfl
  | reject faults => rw [faults.eq]

theorem eq_accept_iff (alike : verdict.Alike like later) :
    later = .accept ↔ verdict = .accept := by
  cases alike with
  | accept => exact iff_of_true rfl rfl
  | mismatch => simp only [reduceCtorEq]
  | reject => simp only [reduceCtorEq]

theorem isAccept_eq (alike : verdict.Alike like later) :
    later.isAccept = verdict.isAccept := by
  cases alike <;> rfl

theorem ofBool {matched laterMatched : Bool} (same : laterMatched = matched) :
    (Verdict.ofBool matched).Alike like (Verdict.ofBool laterMatched) := by
  subst same
  cases laterMatched with
  | true => exact .accept
  | false => exact .mismatch

end Verdict.Alike

/-! Rules for one item. -/

def RespectsVerdict (like : Likeness) (verdict : Node → Verdict) : Prop :=
  ∀ ⦃node later : Node⦄, node.Alike like later →
    (verdict node).Alike like (verdict later)

namespace ItemRule

mutual

/-- No test of the rule tells items that are alike apart. -/
def Respects (like : Likeness) : ItemRule → Prop
  | .keyword _ => True
  | .test accepts => Node.Respects like accepts
  | .check verdict => RespectsVerdict like verdict
  | .anyOf rules => EachRespects like rules

def EachRespects (like : Likeness) : List ItemRule → Prop
  | [] => True
  | rule :: rest => rule.Respects like ∧ EachRespects like rest

end

mutual

theorem verdict_alike {node later : Node} (alike : node.Alike like later) :
    (rule : ItemRule) → rule.Respects like →
      (rule.verdict node).Alike like (rule.verdict later)
  | .keyword keywords, _ => by
      rw [verdict, verdict]
      exact .ofBool (Node.respects_isKeyword keywords alike)
  | .test accepts, respects => by
      rw [Respects] at respects
      rw [verdict, verdict]
      exact .ofBool (respects alike)
  | .check verdict, respects => by
      rw [Respects] at respects
      rw [ItemRule.verdict, ItemRule.verdict]
      exact respects alike
  | .anyOf rules, respects => by
      rw [Respects] at respects
      rw [verdict, verdict]
      exact firstVerdict_alike alike rules respects

theorem firstVerdict_alike {node later : Node} (alike : node.Alike like later) :
    (rules : List ItemRule) → EachRespects like rules →
      (firstVerdict node rules).Alike like (firstVerdict later rules)
  | [], _ => by
      rw [firstVerdict, firstVerdict]
      exact .mismatch
  | rule :: rest, respects => by
      obtain ⟨ruleRespects, restRespect⟩ := respects
      have first := verdict_alike alike rule ruleRespects
      have further := firstVerdict_alike alike rest restRespect
      rw [firstVerdict, firstVerdict]
      generalize rule.verdict node = verdict at first
      generalize rule.verdict later = laterVerdict at first
      cases first with
      | accept => exact .accept
      | mismatch => exact further
      | reject faults => exact .reject faults

end

end ItemRule

/-! Repetitions. -/

namespace Repetition

variable {repetition : Repetition} (respects : repetition.item.Respects like)

include respects

theorem itemVerdict_alike {node later : Node} (alike : node.Alike like later) :
    (repetition.itemVerdict node).Alike like
      (repetition.itemVerdict later) := by
  rw [itemVerdict, itemVerdict, Node.respects_isVariable alike]
  split
  · exact .accept
  · exact ItemRule.verdict_alike alike repetition.item respects

theorem walk_alike :
    (nodes : List Node) → {later : List Node} → AllAlike like nodes later →
      (repetition.walk nodes).Alike like (repetition.walk later)
  | [], _, .nil => .accept
  | [_], _, .cons itemAlike .nil => itemVerdict_alike respects itemAlike
  | node :: gap :: rest, _, alike => by
      obtain _ | ⟨itemAlike, _ | ⟨gapAlike, restAlike⟩⟩ := alike
      have first := itemVerdict_alike respects itemAlike
      have further := walk_alike rest restAlike
      rw [walk, walk,
        Node.respects_accepts repetition.separator gapAlike]
      generalize repetition.itemVerdict node = verdict at first
      generalize repetition.itemVerdict _ = laterVerdict at first
      cases first with
      | accept =>
          simp only
          split
          · exact further
          · exact .mismatch
      | mismatch => exact .mismatch
      | reject faults => exact .reject faults

theorem check_alike {nodes later : List Node}
    (alike : AllAlike like nodes later) :
    (repetition.check nodes).Alike like (repetition.check later) := by
  rw [check, check, ← alike.length_eq]
  split
  · exact .mismatch
  · split
    · exact .reject (.tooMany _)
    · exact walk_alike respects nodes alike

end Repetition

/-! Grammars. -/

namespace Grammar

mutual

/-- No test of the grammar tells items that are alike apart. -/
def Respects (like : Likeness) : Grammar → Prop
  | .single rule => rule.Respects like
  | .list repetition => repetition.item.Respects like
  | .oneOf alternatives => EachRespects like alternatives
  | .custom verdict =>
      ∀ ⦃nodes later : List Node⦄, AllAlike like nodes later →
        (verdict nodes).Alike like (verdict later)

def EachRespects (like : Likeness) : List Grammar → Prop
  | [] => True
  | grammar :: rest => grammar.Respects like ∧ EachRespects like rest

end

theorem respects_whole {accepts : List Node → Bool}
    (respects : RespectsAll like accepts) : (whole accepts).Respects like := by
  rw [whole, Respects]
  intro nodes later alike
  exact .ofBool (respects alike)

theorem check_single_alike {rule : ItemRule} (respects : rule.Respects like)
    {nodes later : List Node} (alike : AllAlike like nodes later) :
    ((single rule).check nodes).Alike like ((single rule).check later) := by
  obtain _ | ⟨itemAlike, _ | ⟨_, _⟩⟩ := alike
  · exact .reject .notSingle
  · exact ItemRule.verdict_alike itemAlike rule respects
  · exact .reject .notSingle

mutual

theorem check_alike {nodes later : List Node}
    (alike : AllAlike like nodes later) :
    (grammar : Grammar) → grammar.Respects like →
      (grammar.check nodes).Alike like (grammar.check later)
  | .single rule, respects => check_single_alike respects alike
  | .list repetition, respects => by
      rw [check, check]
      exact Repetition.check_alike respects alike
  | .oneOf alternatives, respects => by
      rw [Respects] at respects
      rw [check, check]
      exact checkAny_alike alike .mismatch alternatives respects
  | .custom verdict, respects => by
      rw [Respects] at respects
      rw [check, check]
      exact respects alike

theorem checkAny_alike {nodes later : List Node}
    (alike : AllAlike like nodes later) {last laterLast : Verdict}
    (lastAlike : last.Alike like laterLast) :
    (alternatives : List Grammar) → EachRespects like alternatives →
      (checkAny nodes last alternatives).Alike like
        (checkAny later laterLast alternatives)
  | [], _ => by
      rw [checkAny, checkAny]
      exact lastAlike
  | grammar :: rest, respects => by
      obtain ⟨grammarRespects, restRespect⟩ := respects
      have first := check_alike alike grammar grammarRespects
      rw [checkAny, checkAny]
      generalize check nodes grammar = verdict at first
      generalize check later grammar = laterVerdict at first
      cases first with
      | accept => exact .accept
      | mismatch => exact checkAny_alike alike .mismatch rest restRespect
      | reject faults =>
          exact checkAny_alike alike (.reject faults) rest restRespect

end

end Grammar

end StyleValue
