import StyleValue.Proofs.Sequence.Substitution

/-! A chain of tests tells the kind of an item by the first test that it passes.
If the item passes one test at most, the order of the tests does not matter. -/

namespace StyleValue

variable {α β : Type}

/-- The kind that goes with the first test passed. -/
def classify? (chain : List ((α → Bool) × β)) (item : α) : Option β :=
  match chain with
  | [] => none
  | (test, kind) :: later =>
      if test item then some kind else classify? later item

/-- The item passes one of the tests at most. -/
def TellApart (chain : List ((α → Bool) × β)) (item : α) : Prop :=
  chain.Pairwise fun first second =>
    ¬ (first.1 item = true ∧ second.1 item = true)

variable {chain later : List ((α → Bool) × β)} {item : α} {kind : β}
  {test : α → Bool}

theorem not_both {first second : Bool}
    (excludes : first = true → second = false) :
    ¬ (first = true ∧ second = true) := by
  intro both
  rw [excludes both.1] at both
  exact Bool.false_ne_true both.2

theorem TellApart.perm (apart : TellApart chain item)
    (permuted : later.Perm chain) : TellApart later item := by
  apply (permuted.pairwise_iff _).mpr apart
  intro first second notBoth both
  exact notBoth ⟨both.2, both.1⟩

theorem mem_of_classify? (found : classify? chain item = some kind) :
    ∃ test, (test, kind) ∈ chain ∧ test item = true := by
  induction chain with
  | nil => contradiction
  | cons first chain ih =>
      rw [classify?] at found
      split at found
      next passed =>
        cases found
        exact ⟨first.1, List.mem_cons_self, passed⟩
      next =>
        obtain ⟨test, member, passed⟩ := ih found
        exact ⟨test, List.mem_cons_of_mem _ member, passed⟩

theorem TellApart.classify?_eq (apart : TellApart chain item)
    (member : (test, kind) ∈ chain) (passed : test item = true) :
    classify? chain item = some kind := by
  induction chain with
  | nil => contradiction
  | cons first chain ih =>
      obtain ⟨notBoth, apart⟩ := List.pairwise_cons.mp apart
      rw [classify?]
      rcases List.mem_cons.mp member with rfl | further
      · rw [if_pos passed]
      · rw [if_neg fun isFirst => notBoth _ further ⟨isFirst, passed⟩]
        exact ih apart further

theorem TellApart.classify?_iff (apart : TellApart chain item) :
    classify? chain item = some kind ↔
      ∃ test, (test, kind) ∈ chain ∧ test item = true := by
  constructor
  · exact mem_of_classify?
  · intro found
    obtain ⟨test, member, passed⟩ := found
    exact apart.classify?_eq member passed

/-- In whatever order the tests come. -/
theorem TellApart.classify?_perm_iff (apart : TellApart chain item)
    (permuted : later.Perm chain) :
    classify? later item = some kind ↔
      ∃ test, (test, kind) ∈ chain ∧ test item = true := by
  rw [(apart.perm permuted).classify?_iff]
  simp only [permuted.mem_iff]

theorem TellApart.classify?_perm (apart : TellApart chain item)
    (permuted : later.Perm chain) :
    classify? later item = classify? chain item := by
  ext kind
  rw [apart.classify?_perm_iff permuted, apart.classify?_iff]

/-- When no item is accepted by a case without its test, the chain accepts what
any of the cases does. -/
theorem TellApart.getD_classify? {chain later : List ((α → Bool) × Bool)}
    (apart : TellApart chain item) (permuted : later.Perm chain)
    (needsTest : ∀ case ∈ chain, case.2 = true → case.1 item = true) :
    (classify? later item).getD false = chain.any Prod.snd := by
  have accepts : (classify? later item).getD false = true ↔
      classify? later item = some true := by
    cases classify? later item with
    | none => simp
    | some accepted => simp
  rw [Bool.eq_iff_iff, accepts, apart.classify?_perm_iff permuted,
    List.any_eq_true]
  constructor
  · intro found
    obtain ⟨test, member, -⟩ := found
    exact ⟨_, member, rfl⟩
  · intro found
    obtain ⟨⟨test, accepted⟩, member, isAccepted⟩ := found
    cases isAccepted
    exact ⟨test, member, needsTest _ member rfl⟩

/-! Calls by their names. -/

/-- What is asked of the arguments of a call, by its name. -/
def callCases (calls : List (List String × (List Node → Bool))) (node : Node) :
    List ((Node → Bool) × Bool) :=
  calls.map fun call =>
    (Node.isCallTo call.1, (node.argsOf? call.1).any call.2)

/-- The later calls are asked for only if the name is another. -/
theorem getD_classify?_callCases_cons (call : List String × (List Node → Bool))
    (calls : List (List String × (List Node → Bool))) (node : Node) :
    (classify? (callCases (call :: calls) node) node).getD false =
      match node.argsOf? call.1 with
      | some args => call.2 args
      | none => (classify? (callCases calls node) node).getD false := by
  rw [callCases, List.map_cons, classify?, Node.isCallTo]
  cases node.argsOf? call.1 with
  | some args => rfl
  | none => rfl

theorem tellApart_callCases {calls : List (List String × (List Node → Bool))}
    (apart : calls.Pairwise fun first second => ∀ name ∈ first.1,
      ∀ other ∈ second.1, sameName name other = false) (node : Node) :
    TellApart (callCases calls node) node := by
  rw [TellApart, callCases, List.pairwise_map]
  refine apart.imp ?_
  intro first second namesApart both
  have notSecond := Node.argsOf?_of_isCallTo both.1 namesApart
  have isSecond : node.isCallTo second.1 = true := both.2
  rw [Node.isCallTo, notSecond] at isSecond
  contradiction

theorem any_of_callCases {calls : List (List String × (List Node → Bool))}
    (apart : calls.Pairwise fun first second => ∀ name ∈ first.1,
      ∀ other ∈ second.1, sameName name other = false)
    {node : Node} {chain : List ((Node → Bool) × Bool)}
    (permuted : chain.Perm (callCases calls node)) :
    (classify? chain node).getD false =
      calls.any fun call => (node.argsOf? call.1).any call.2 := by
  have needsTest : ∀ case ∈ callCases calls node,
      case.2 = true → case.1 node = true := by
    intro case member accepted
    obtain ⟨call, -, rfl⟩ := List.mem_map.mp member
    exact Node.isCallTo_of_any accepted
  rw [(tellApart_callCases apart node).getD_classify? permuted needsTest,
    callCases, List.any_map]
  rfl

end StyleValue
