import StyleValue.Proofs.Grammar.Language
import StyleValue.Proofs.Sequence.Layers

/-! Repetitions and layers. A repetition with commas describes the values each
layer of which is one item, and the layers of what a repetition accepts all say
something if its items do. -/

namespace StyleValue

/-! Items and gaps. -/

namespace Alternates

variable {isItem isGap : Node → Prop} {count : Nat} {nodes : List Node}

theorem forall_mem (alternates : Alternates isItem isGap count nodes) :
    ∀ node ∈ nodes, isItem node ∨ isGap node := by
  induction alternates with
  | one item =>
      intro node member
      rw [List.mem_singleton.mp member]
      exact .inl item
  | more item gap _ ih =>
      rw [List.forall_mem_cons, List.forall_mem_cons]
      exact ⟨.inl item, .inr gap, ih⟩

theorem exists_item (alternates : Alternates isItem isGap count nodes) :
    ∃ node ∈ nodes, isItem node := by
  cases alternates with
  | one item => exact ⟨_, List.mem_cons_self, item⟩
  | more item => exact ⟨_, List.mem_cons_self, item⟩

/-- Further gaps at the end leave it the layer that it is. -/
theorem isLayer_append (alternates : Alternates isItem isGap count nodes)
    (needs : ∀ node, isItem node → node.isContent = true)
    (spaces : ∀ node, isGap node → node.isSpace = true) {more : List Node}
    (gaps : ∀ node ∈ more, isGap node) : IsLayer (nodes ++ more) := by
  apply isLayer_of_forall
  · intro node member
    obtain inNodes | inMore := List.mem_append.mp member
    · exact (alternates.forall_mem node inNodes).imp (needs node) (spaces node)
    · exact .inr (spaces node (gaps node inMore))
  · obtain ⟨node, member, item⟩ := alternates.exists_item
    exact ⟨node, List.mem_append_left more member, needs node item⟩

end Alternates

section Commas

variable {isItem : Node → Prop}

theorem commaGroups_cons_cons {node comma : Node} (rest : List Node)
    (notComma : node.isComma = false) (isComma : comma.isComma = true) :
    commaGroups (node :: comma :: rest) = [node] :: commaGroups rest := by
  have single : commaGroups [node] = [[node]] := by
    apply groupsBy_of_forall
    intro other member
    rw [List.mem_singleton.mp member]
    exact notComma
  calc
    commaGroups (node :: comma :: rest) =
        commaGroups [node] ++ commaGroups rest :=
      commaGroups_append_cons [node] rest isComma
    _ = [node] :: commaGroups rest := by rw [single, List.singleton_append]

theorem Alternates.forall_commaGroups {count : Nat} {nodes : List Node}
    (notComma : ∀ node, isItem node → node.isComma = false)
    (alternates :
      Alternates isItem (fun node => node.isComma = true) count nodes) :
    ∀ group ∈ commaGroups nodes, ∃ node, group = [node] ∧ isItem node := by
  induction alternates with
  | @one node item =>
      rw [commaGroups, groupsBy, notComma node item]
      intro group member
      exact ⟨node, List.mem_singleton.mp member, item⟩
  | @more node comma count rest item isComma _ ih =>
      rw [commaGroups_cons_cons rest (notComma node item) isComma,
        List.forall_mem_cons]
      exact ⟨⟨node, rfl, item⟩, ih⟩

theorem exists_alternates_of_commaGroups :
    (nodes : List Node) →
      (∀ group ∈ commaGroups nodes, ∃ node, group = [node] ∧ isItem node) →
      ∃ count,
        Alternates isItem (fun node => node.isComma = true) count nodes
  | [], singles => by
      obtain ⟨node, isNil, -⟩ := singles [] List.mem_cons_self
      contradiction
  | [node], singles => by
      rw [commaGroups, groupsBy] at singles
      split at singles
      next =>
        obtain ⟨node, isNil, -⟩ := singles [] List.mem_cons_self
        contradiction
      next =>
        obtain ⟨other, isOther, item⟩ := singles [node] List.mem_cons_self
        obtain ⟨rfl, -⟩ := List.cons.inj isOther
        exact ⟨1, .one item⟩
  | node :: next :: rest, singles => by
      rw [commaGroups, groupsBy] at singles
      split at singles
      next =>
        obtain ⟨node, isNil, -⟩ := singles [] List.mem_cons_self
        contradiction
      next =>
        rw [groupsBy] at singles
        split at singles
        next isComma =>
          obtain ⟨⟨other, isOther, item⟩, restSingles⟩ :=
            List.forall_mem_cons.mp singles
          obtain ⟨rfl, -⟩ := List.cons.inj isOther
          obtain ⟨count, further⟩ :=
            exists_alternates_of_commaGroups rest restSingles
          exact ⟨count + 1, .more item isComma further⟩
        next =>
          obtain ⟨group, groups, isCons⟩ :=
            List.exists_cons_of_ne_nil (groupsBy_ne_nil Node.isComma rest)
          rw [isCons] at singles
          -- The first run has two items.
          obtain ⟨other, isOther, -⟩ :=
            singles (node :: next :: group) List.mem_cons_self
          have nothingFollows := (List.cons.inj isOther).2
          contradiction

end Commas

theorem Node.isComma_eq_false_of_isVariable {node : Node}
    (isVariable : node.isVariable = true) : node.isComma = false := by
  obtain ⟨_, _, _, _, _, rfl, -⟩ := isVariable_iff.mp isVariable
  rfl

/-! Repetitions. -/

namespace Repetition

variable {repetition : Repetition} {nodes : List Node}

theorem exists_alternates_of_isStrict (isStrict : repetition.isStrict = true)
    (accepted : repetition.check nodes = .accept) :
    ∃ count,
      Alternates repetition.TakesItem repetition.IsGap count nodes := by
  cases check_eq_accept_iff_describes.mp accepted with
  | items alternates => exact ⟨_, alternates⟩
  | empty loose =>
      rw [isStrict] at loose
      contradiction
  | trailing loose =>
      rw [isStrict] at loose
      contradiction

theorem isGap_of_comma (isComma : repetition.separator = .comma) :
    repetition.IsGap = fun node => node.isComma = true := by
  funext node
  rw [IsGap, isComma]
  rfl

theorem isGap_of_space (isSpace : repetition.separator = .space) :
    repetition.IsGap = fun node => node.isSpace = true := by
  funext node
  rw [IsGap, isSpace]
  rfl

/-- If the items of an accepted value say something, then so do its layers. A
repetition with commas has to be strict for that: a loose one could end in a
comma. -/
theorem isLayered_of_check
    (needs : ∀ node, repetition.TakesItem node → node.isContent = true)
    (guarded : repetition.separator = .comma → repetition.isStrict = true)
    (nonempty : nodes ≠ []) (accepted : repetition.check nodes = .accept) :
    IsLayered nodes := by
  cases separator : repetition.separator with
  | comma =>
      obtain ⟨count, alternates⟩ :=
        exists_alternates_of_isStrict (guarded separator) accepted
      rw [isGap_of_comma separator] at alternates
      have notComma : ∀ node, repetition.TakesItem node →
          node.isComma = false := by
        intro node item
        exact Node.isDividerOf_eq_false
          (Node.isDivider_eq_false_of_isContent (needs node item)) .comma
      intro group member
      obtain ⟨node, rfl, item⟩ :=
        alternates.forall_commaGroups notComma group member
      exact isLayer_singleton (needs node item)
  | space =>
      have walked := (check_eq_accept_iff_walk.mp accepted).2.2
      have spaces : ∀ node, repetition.IsGap node → node.isSpace = true := by
        rw [isGap_of_space separator]
        exact fun _ isSpace => isSpace
      apply IsLayer.isLayered
      obtain isNil | ⟨count, alternates⟩ | ⟨count, listed, last, rfl,
        alternates, isGap⟩ := alternates_of_walk walked
      · exact absurd isNil nonempty
      · rw [← List.append_nil nodes]
        exact alternates.isLayer_append needs spaces nofun
      · apply alternates.isLayer_append needs spaces
        intro node member
        rw [List.mem_singleton.mp member]
        exact isGap

end Repetition

namespace Grammar

/-- A list with commas is judged layer by layer: each is one item. -/
theorem check_commaList_iff {rule : ItemRule}
    (notComma : ∀ node, node.isComma = true → rule.verdict node ≠ .accept)
    {nodes : List Node} :
    (commaList rule).check nodes = .accept ↔
      ∀ group ∈ commaGroups nodes,
        ∃ node, group = [node] ∧
          (node.isVariable = true ∨ rule.verdict node = .accept) := by
  let repetition : Repetition := { item := rule, separator := .comma }
  have takesItem_iff : ∀ node, repetition.TakesItem node ↔
      node.isVariable = true ∨ rule.verdict node = .accept := by
    intro node
    rw [ItemRule.verdict_eq_accept_iff]
    rfl
  have isGap_eq : repetition.IsGap = fun node => node.isComma = true :=
    Repetition.isGap_of_comma rfl
  simp only [← takesItem_iff]
  rw [commaList, check]
  constructor
  · intro accepted
    obtain ⟨count, alternates⟩ :=
      Repetition.exists_alternates_of_isStrict rfl accepted
    rw [isGap_eq] at alternates
    apply alternates.forall_commaGroups
    intro node item
    obtain isVariable | taken := (takesItem_iff node).mp item
    · exact Node.isComma_eq_false_of_isVariable isVariable
    · exact Bool.eq_false_iff.mpr fun isComma => notComma node isComma taken
  · intro singles
    obtain ⟨count, alternates⟩ := exists_alternates_of_commaGroups nodes singles
    rw [← isGap_eq] at alternates
    exact Repetition.check_eq_accept_iff_describes.mpr (.items alternates nofun)

end Grammar

end StyleValue
