import StyleValue.Proofs.Grammar.Substitution

/-! The values that a grammar describes, said without running it. Checking a
value decides whether it is one of them. -/

namespace StyleValue

/-! One item. -/

mutual

/-- The rule takes the item. Of several rules the first one that does not pass
over the item decides, so a fault found by an earlier rule is final. -/
inductive ItemRule.Takes (node : Node) : ItemRule → Prop
  | keyword {keywords : List String}
      (isKeyword : node.isKeyword keywords = true) :
      ItemRule.Takes node (.keyword keywords)
  | test {accepts : Node → Bool} (accepted : accepts node = true) :
      ItemRule.Takes node (.test accepts)
  | check {verdict : Node → Verdict} (accepted : verdict node = .accept) :
      ItemRule.Takes node (.check verdict)
  | anyOf {earlier later : List ItemRule} {rule : ItemRule}
      (passed : ∀ rule ∈ earlier, ItemRule.PassesOver node rule)
      (taken : ItemRule.Takes node rule) :
      ItemRule.Takes node (.anyOf (earlier ++ rule :: later))

/-- The rule has nothing to say of the item. -/
inductive ItemRule.PassesOver (node : Node) : ItemRule → Prop
  | keyword {keywords : List String}
      (notKeyword : node.isKeyword keywords = false) :
      ItemRule.PassesOver node (.keyword keywords)
  | test {accepts : Node → Bool} (notAccepted : accepts node = false) :
      ItemRule.PassesOver node (.test accepts)
  | check {verdict : Node → Verdict} (mismatched : verdict node = .mismatch) :
      ItemRule.PassesOver node (.check verdict)
  | anyOf {rules : List ItemRule}
      (passed : ∀ rule ∈ rules, ItemRule.PassesOver node rule) :
      ItemRule.PassesOver node (.anyOf rules)

end

theorem Verdict.ofBool_eq_accept_iff {matched : Bool} :
    Verdict.ofBool matched = .accept ↔ matched = true := by
  cases matched <;> simp [Verdict.ofBool]

theorem Verdict.ofBool_eq_mismatch_iff {matched : Bool} :
    Verdict.ofBool matched = .mismatch ↔ matched = false := by
  cases matched <;> simp [Verdict.ofBool]

namespace ItemRule

mutual

theorem verdict_eq_mismatch_iff (node : Node) :
    (rule : ItemRule) →
      (rule.verdict node = .mismatch ↔ rule.PassesOver node)
  | .keyword keywords => by
      rw [verdict, Verdict.ofBool_eq_mismatch_iff]
      exact ⟨.keyword, fun | .keyword notKeyword => notKeyword⟩
  | .test accepts => by
      rw [verdict, Verdict.ofBool_eq_mismatch_iff]
      exact ⟨.test, fun | .test notAccepted => notAccepted⟩
  | .check verdict => by
      rw [ItemRule.verdict]
      exact ⟨.check, fun | .check mismatched => mismatched⟩
  | .anyOf rules => by
      rw [verdict, firstVerdict_eq_mismatch_iff node rules]
      exact ⟨.anyOf, fun | .anyOf passed => passed⟩

theorem firstVerdict_eq_mismatch_iff (node : Node) :
    (rules : List ItemRule) →
      (firstVerdict node rules = .mismatch ↔
        ∀ rule ∈ rules, rule.PassesOver node)
  | [] => by simp [firstVerdict]
  | rule :: rest => by
      rw [List.forall_mem_cons, ← verdict_eq_mismatch_iff node rule,
        ← firstVerdict_eq_mismatch_iff node rest, firstVerdict]
      split
      next passed => simp [passed]
      next speaks => exact iff_of_false speaks fun both => speaks both.1

end

mutual

theorem verdict_eq_accept_iff (node : Node) :
    (rule : ItemRule) → (rule.verdict node = .accept ↔ rule.Takes node)
  | .keyword keywords => by
      rw [verdict, Verdict.ofBool_eq_accept_iff]
      exact ⟨.keyword, fun | .keyword isKeyword => isKeyword⟩
  | .test accepts => by
      rw [verdict, Verdict.ofBool_eq_accept_iff]
      exact ⟨.test, fun | .test accepted => accepted⟩
  | .check verdict => by
      rw [ItemRule.verdict]
      exact ⟨.check, fun | .check accepted => accepted⟩
  | .anyOf rules => by
      rw [verdict, firstVerdict_eq_accept_iff node rules]
      constructor
      · rintro ⟨earlier, rule, later, rfl, passed, taken⟩
        exact .anyOf passed taken
      · exact fun | .anyOf passed taken => ⟨_, _, _, rfl, passed, taken⟩

theorem firstVerdict_eq_accept_iff (node : Node) :
    (rules : List ItemRule) →
      (firstVerdict node rules = .accept ↔
        ∃ earlier rule later, rules = earlier ++ rule :: later ∧
          (∀ rule ∈ earlier, rule.PassesOver node) ∧ rule.Takes node)
  | [] => by simp [firstVerdict]
  | rule :: rest => by
      have ruleIff := verdict_eq_accept_iff node rule
      have restIff := firstVerdict_eq_accept_iff node rest
      rw [firstVerdict]
      split
      next passes =>
        have passed := (verdict_eq_mismatch_iff node rule).mp passes
        rw [restIff]
        constructor
        · rintro ⟨earlier, chosen, later, rfl, allPassed, taken⟩
          exact ⟨rule :: earlier, chosen, later, rfl,
            List.forall_mem_cons.mpr ⟨passed, allPassed⟩, taken⟩
        · rintro ⟨_ | ⟨_, earlier⟩, chosen, later, split, allPassed, taken⟩
          · obtain ⟨rfl, -⟩ := List.cons.inj split
            rw [ruleIff.mpr taken] at passes
            contradiction
          · obtain ⟨rfl, rfl⟩ := List.cons.inj split
            exact ⟨earlier, chosen, later, rfl,
              (List.forall_mem_cons.mp allPassed).2, taken⟩
      next speaks =>
        rw [ruleIff]
        constructor
        · intro taken
          exact ⟨[], rule, rest, rfl, nofun, taken⟩
        · rintro ⟨_ | ⟨_, earlier⟩, chosen, later, split, allPassed, taken⟩
          · obtain ⟨rfl, -⟩ := List.cons.inj split
            exact taken
          · obtain ⟨rfl, -⟩ := List.cons.inj split
            have passed := (List.forall_mem_cons.mp allPassed).1
            exact absurd ((verdict_eq_mismatch_iff node _).mpr passed) speaks

end

end ItemRule

/-! Repeated items. -/

/-- `count` items, at least one, with a gap between neighbours. -/
inductive Alternates (isItem isGap : Node → Prop) : Nat → List Node → Prop
  | one {node : Node} (item : isItem node) : Alternates isItem isGap 1 [node]
  | more {node between : Node} {count : Nat} {rest : List Node}
      (item : isItem node) (gap : isGap between)
      (further : Alternates isItem isGap count rest) :
      Alternates isItem isGap (count + 1) (node :: between :: rest)

theorem Alternates.length_eq {isItem isGap : Node → Prop} {count : Nat}
    {nodes : List Node} (alternates : Alternates isItem isGap count nodes) :
    nodes.length + 1 = 2 * count := by
  induction alternates with
  | one => rfl
  | more _ _ _ ih =>
      simp only [List.length_cons]
      omega

namespace Repetition

variable (repetition : Repetition)

def TakesItem (node : Node) : Prop :=
  node.isVariable = true ∨ repetition.item.Takes node

def IsGap (node : Node) : Prop :=
  repetition.separator.accepts node = true

/-- The values that the repetition describes. A loose one may also be empty or
have one more separator at its end, and then its bound counts separators. -/
inductive Describes : List Node → Prop
  | items {count : Nat} {nodes : List Node}
      (alternates : Alternates repetition.TakesItem repetition.IsGap count nodes)
      (bounded : ∀ max ∈ repetition.max, count ≤ max) : Describes nodes
  | empty (loose : repetition.isStrict = false) : Describes []
  | trailing {count : Nat} {nodes : List Node} {gap : Node}
      (loose : repetition.isStrict = false)
      (alternates : Alternates repetition.TakesItem repetition.IsGap count nodes)
      (isGap : repetition.IsGap gap)
      (bounded : ∀ max ∈ repetition.max,
        (nodes ++ [gap]).length ≤ 2 * max - 1) : Describes (nodes ++ [gap])

variable {repetition}

theorem itemVerdict_eq_accept_iff {node : Node} :
    repetition.itemVerdict node = .accept ↔ repetition.TakesItem node := by
  rw [itemVerdict, TakesItem]
  split
  next isVariable => simp [isVariable]
  next notVariable =>
    simp [notVariable, ItemRule.verdict_eq_accept_iff]

theorem walk_of_alternates {count : Nat} {nodes : List Node}
    (alternates :
      Alternates repetition.TakesItem repetition.IsGap count nodes) :
    repetition.walk nodes = .accept := by
  induction alternates with
  | one item => exact itemVerdict_eq_accept_iff.mpr item
  | more item gap _ ih =>
      rw [walk, itemVerdict_eq_accept_iff.mpr item]
      simp only [show repetition.separator.accepts _ = true from gap, if_true]
      exact ih

theorem walk_of_trailing {count : Nat} {nodes : List Node} {last : Node}
    (alternates : Alternates repetition.TakesItem repetition.IsGap count nodes)
    (isGap : repetition.IsGap last) :
    repetition.walk (nodes ++ [last]) = .accept := by
  induction alternates with
  | one item =>
      rw [List.singleton_append, walk, itemVerdict_eq_accept_iff.mpr item]
      simp only [show repetition.separator.accepts _ = true from isGap, if_true]
      rfl
  | more item gap _ ih =>
      rw [List.cons_append, List.cons_append, walk,
        itemVerdict_eq_accept_iff.mpr item]
      simp only [show repetition.separator.accepts _ = true from gap, if_true]
      exact ih

/-- What is walked to the end is empty, or has its items and gaps in turn, or
has one gap more. -/
theorem alternates_of_walk {nodes : List Node}
    (accepted : repetition.walk nodes = .accept) :
    nodes = [] ∨
      (∃ count,
        Alternates repetition.TakesItem repetition.IsGap count nodes) ∨
      ∃ count listed last, nodes = listed ++ [last] ∧
        Alternates repetition.TakesItem repetition.IsGap count listed ∧
        repetition.IsGap last := by
  fun_induction repetition.walk nodes with
  | case1 => exact .inl rfl
  | case2 node =>
      exact .inr (.inl ⟨1, .one (itemVerdict_eq_accept_iff.mp accepted)⟩)
  | case3 node gap rest itemAccepted isGap ih =>
      have item := itemVerdict_eq_accept_iff.mp itemAccepted
      obtain rfl | ⟨count, further⟩ | ⟨count, listed, last, rfl, further,
        isLast⟩ := ih accepted
      · exact .inr (.inr ⟨1, [node], gap, rfl, .one item, isGap⟩)
      · exact .inr (.inl ⟨count + 1, .more item isGap further⟩)
      · exact .inr (.inr ⟨count + 1, node :: gap :: listed, last, rfl,
          .more item isGap further, isLast⟩)
  | case4 => contradiction
  | case5 node gap rest rejected => exact absurd accepted rejected

theorem check_eq_accept_iff_walk {nodes : List Node} :
    repetition.check nodes = .accept ↔
      (repetition.isStrict = true → nodes.length % 2 = 1) ∧
        (∀ max ∈ repetition.max, nodes.length ≤ 2 * max - 1) ∧
          repetition.walk nodes = .accept := by
  rw [check]
  split
  next isEven =>
    simp only [Bool.and_eq_true, beq_iff_eq] at isEven
    constructor
    · intro accepted
      contradiction
    · rintro ⟨isOdd, -, -⟩
      have := isOdd isEven.1
      omega
  next notEven =>
    have isOdd : repetition.isStrict = true → nodes.length % 2 = 1 := by
      simpa [Nat.mod_two_ne_zero] using notEven
    split
    next max isMax =>
      obtain ⟨found, tooLong⟩ := Option.filter_eq_some_iff.mp isMax
      constructor
      · intro accepted
        contradiction
      · rintro ⟨-, bounded, -⟩
        have := bounded max found
        have := of_decide_eq_true tooLong
        omega
    next noMax =>
      have bounded : ∀ max ∈ repetition.max, nodes.length ≤ 2 * max - 1 := by
        intro max isMax
        have := Option.filter_eq_none_iff.mp noMax max isMax
        simpa using this
      exact ⟨fun walked => ⟨isOdd, bounded, walked⟩, fun parts => parts.2.2⟩

theorem check_eq_accept_iff_describes {nodes : List Node} :
    repetition.check nodes = .accept ↔ repetition.Describes nodes := by
  rw [check_eq_accept_iff_walk]
  constructor
  · rintro ⟨isOdd, bounded, walked⟩
    have isLoose : nodes.length % 2 = 0 → repetition.isStrict = false := by
      intro isEven
      rw [← Bool.not_eq_true]
      intro isStrict
      have := isOdd isStrict
      omega
    obtain rfl | ⟨count, alternates⟩ | ⟨count, listed, last, rfl, alternates,
      isGap⟩ := alternates_of_walk walked
    · exact .empty (isLoose rfl)
    · refine .items alternates ?_
      intro max isMax
      have := bounded max isMax
      have := alternates.length_eq
      omega
    · refine .trailing (isLoose ?_) alternates isGap bounded
      have := alternates.length_eq
      rw [List.length_append, List.length_singleton]
      omega
  · intro described
    cases described with
    | items alternates bounded =>
        have length := alternates.length_eq
        refine ⟨fun _ => by omega, ?_, walk_of_alternates alternates⟩
        intro max isMax
        have := bounded max isMax
        omega
    | empty loose => exact ⟨by simp [loose], by simp, rfl⟩
    | trailing loose alternates isGap bounded =>
        exact ⟨by simp [loose], bounded, walk_of_trailing alternates isGap⟩

end Repetition

/-! Whole values. -/

/-- The values that the grammar describes. -/
inductive Grammar.Describes : Grammar → List Node → Prop
  | single {rule : ItemRule} {node : Node} (taken : rule.Takes node) :
      Describes (.single rule) [node]
  | list {repetition : Repetition} {nodes : List Node}
      (described : repetition.Describes nodes) :
      Describes (.list repetition) nodes
  | oneOf {alternatives : List Grammar} {grammar : Grammar}
      {nodes : List Node} (member : grammar ∈ alternatives)
      (described : Describes grammar nodes) :
      Describes (.oneOf alternatives) nodes
  | custom {verdict : List Node → Verdict} {nodes : List Node}
      (accepted : verdict nodes = .accept) : Describes (.custom verdict) nodes

namespace Grammar

theorem check_single_eq_accept_iff {rule : ItemRule} {nodes : List Node} :
    (single rule).check nodes = .accept ↔ (single rule).Describes nodes := by
  simp only [check]
  split
  next node =>
    rw [ItemRule.verdict_eq_accept_iff]
    constructor
    · exact .single
    · intro described
      cases described with
      | single taken => exact taken
  next notSingle =>
    constructor
    · intro accepted
      contradiction
    · intro described
      cases described with
      | single => exact absurd rfl (notSingle _)

mutual

theorem check_eq_accept_iff_describes (nodes : List Node) :
    (grammar : Grammar) →
      (grammar.check nodes = .accept ↔ grammar.Describes nodes)
  | .single _ => check_single_eq_accept_iff
  | .list repetition => by
      rw [check, Repetition.check_eq_accept_iff_describes]
      exact ⟨.list, fun | .list described => described⟩
  | .oneOf alternatives => by
      have notYet : Verdict.mismatch ≠ .accept := nofun
      rw [check, checkAny_eq_accept_iff notYet,
        exists_check_iff_exists_describes nodes alternatives]
      constructor
      · rintro ⟨grammar, member, described⟩
        exact .oneOf member described
      · exact fun | .oneOf member described => ⟨_, member, described⟩
  | .custom verdict => by
      rw [check]
      exact ⟨.custom, fun | .custom accepted => accepted⟩

theorem exists_check_iff_exists_describes (nodes : List Node) :
    (alternatives : List Grammar) →
      ((∃ grammar ∈ alternatives, grammar.check nodes = .accept) ↔
        ∃ grammar ∈ alternatives, grammar.Describes nodes)
  | [] => by simp
  | grammar :: rest => by
      rw [List.exists_mem_cons_iff, List.exists_mem_cons_iff,
        check_eq_accept_iff_describes nodes grammar,
        exists_check_iff_exists_describes nodes rest]

end

/-- If no alternative accepts, the last one has the word. -/
theorem checkAny_eq_accept_or {nodes : List Node} {last : Verdict}
    {alternatives : List Grammar} :
    checkAny nodes last alternatives = .accept ∨
      checkAny nodes last alternatives =
        ((alternatives.map (check nodes)).getLast?.getD last) := by
  induction alternatives generalizing last with
  | nil => exact .inr (by simp [checkAny])
  | cons grammar rest ih =>
      rw [checkAny]
      split
      next accepted => exact .inl rfl
      next rejected =>
        refine ih.imp id fun lastVerdict => ?_
        rw [lastVerdict, List.map_cons, List.getLast?_cons, Option.getD_some]

/-- Checking decides the language of a grammar, and alternatives of which none
accepts have the verdict of the last, or a mismatch if there is none. -/
theorem check_decides_language (grammar : Grammar) (nodes : List Node)
    (alternatives : List Grammar) :
    (grammar.check nodes = .accept ↔ grammar.Describes nodes) ∧
      ((oneOf alternatives).check nodes = .accept ∨
        (oneOf alternatives).check nodes =
          ((alternatives.map (check nodes)).getLast?.getD .mismatch)) := by
  refine ⟨check_eq_accept_iff_describes nodes grammar, ?_⟩
  rw [check]
  exact checkAny_eq_accept_or

end Grammar

end StyleValue
