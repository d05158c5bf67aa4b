import StyleValue.Proofs.Grammar.Layers
import StyleValue.Proofs.Sequence.Spaced

/-! Lists, tuples and repetitions are walks along a sequence: items at the even
places, gaps at the odd ones. If the gaps are commas, the same sequences can be
told by their groups, the runs between the commas. -/

namespace StyleValue

/-! Walks, read by places. -/

/-- Every odd place holds a gap, and the even place `2 * index` an item that
may stand at `index`. -/
def FitsPlaces (isItem : Nat → Node → Prop) (isGap : Node → Prop)
    (nodes : List Node) : Prop :=
  ∀ place node, nodes[place]? = some node →
    if place % 2 = 1 then isGap node else isItem (place / 2) node

section Places

variable {isItem : Nat → Node → Prop} {isGap : Node → Prop}

theorem fitsPlaces_nil : FitsPlaces isItem isGap [] := by
  intro place node found
  contradiction

theorem fitsPlaces_singleton {node : Node} :
    FitsPlaces isItem isGap [node] ↔ isItem 0 node := by
  constructor
  · intro fits
    exact fits 0 node rfl
  · intro item place other found
    cases place with
    | zero =>
        cases found
        exact item
    | succ place => contradiction

theorem fitsPlaces_cons_cons {node gap : Node} {rest : List Node} :
    FitsPlaces isItem isGap (node :: gap :: rest) ↔
      isItem 0 node ∧ isGap gap ∧
        FitsPlaces (fun index => isItem (index + 1)) isGap rest := by
  have parity (place : Nat) : (place + 1 + 1) % 2 = place % 2 :=
    Nat.add_mod_right place 2
  have half (place : Nat) : (place + 1 + 1) / 2 = place / 2 + 1 :=
    Nat.add_div_right place Nat.two_pos
  constructor
  · intro fits
    refine ⟨fits 0 node rfl, fits 1 gap rfl, ?_⟩
    intro place other found
    have fitsLater := fits (place + 1 + 1) other found
    rwa [parity, half] at fitsLater
  · intro parts place other found
    obtain ⟨item, gapFits, further⟩ := parts
    obtain _ | _ | place := place
    · cases found
      exact item
    · cases found
      exact gapFits
    · rw [parity, half]
      exact further place other found

end Places

variable {item : Node → Bool} {items : List (Node → Bool)}
  {separator : Separator} {nodes : List Node}

theorem isListOf_iff_fitsPlaces :
    isListOf item separator nodes = true ↔
      nodes.length % 2 = 1 ∧
        FitsPlaces (fun _ node => item node = true)
          (fun gap => separator.accepts gap = true) nodes := by
  fun_induction isListOf item separator nodes with
  | case1 => simp
  | case2 node => simp [fitsPlaces_singleton]
  | case3 node gap rest ih =>
      have parity : (rest.length + 1 + 1) % 2 = rest.length % 2 :=
        Nat.add_mod_right rest.length 2
      rw [Bool.and_eq_true, Bool.and_eq_true, ih, fitsPlaces_cons_cons,
        List.length_cons, List.length_cons, parity]
      tauto

theorem isTupleOf_cons_cons (item : Node → Bool) (items : List (Node → Bool))
    (node gap : Node) (rest : List Node) :
    isTupleOf separator (item :: items) (node :: gap :: rest) =
      (item node && separator.accepts gap && isTupleOf separator items rest) := by
  cases items <;> rfl

theorem isTupleOf_iff_fitsPlaces :
    isTupleOf separator items nodes = true ↔
      nodes.length + 1 = 2 * items.length ∧
        FitsPlaces (fun index node => items[index]?.any (· node) = true)
          (fun gap => separator.accepts gap = true) nodes := by
  induction items generalizing nodes with
  | nil => simp [isTupleOf]
  | cons item items ih =>
      obtain _ | ⟨node, _ | ⟨gap, rest⟩⟩ := nodes
      · have tooShort : 0 + 1 ≠ 2 * (items.length + 1) := by omega
        simp [isTupleOf, tooShort]
      · cases items with
        | nil => simp [isTupleOf, fitsPlaces_singleton]
        | cons second more =>
            have tooShort : 1 + 1 ≠ 2 * (more.length + 1 + 1) := by omega
            simp [isTupleOf, tooShort]
      · have lengths : rest.length + 1 + 1 + 1 = 2 * (items.length + 1) ↔
            rest.length + 1 = 2 * items.length := by
          omega
        rw [isTupleOf_cons_cons, Bool.and_eq_true, Bool.and_eq_true, ih,
          fitsPlaces_cons_cons, List.length_cons, List.length_cons,
          List.length_cons, lengths]
        exact and_left_comm.trans (and_congr_right' and_assoc)

namespace Repetition

variable {repetition : Repetition}

theorem walk_eq_accept_iff_fitsPlaces :
    repetition.walk nodes = .accept ↔
      FitsPlaces (fun _ node => repetition.TakesItem node)
        repetition.IsGap nodes := by
  fun_induction repetition.walk nodes with
  | case1 => exact iff_of_true rfl fitsPlaces_nil
  | case2 node =>
      rw [fitsPlaces_singleton, itemVerdict_eq_accept_iff]
  | case3 node gap rest accepted isGap ih =>
      have taken := itemVerdict_eq_accept_iff.mp accepted
      rw [fitsPlaces_cons_cons, ih]
      exact ⟨fun fits => ⟨taken, isGap, fits⟩, fun fits => fits.2.2⟩
  | case4 node gap rest accepted notGap =>
      rw [fitsPlaces_cons_cons]
      exact iff_of_false (by decide) fun fits => notGap fits.2.1
  | case5 node gap rest rejected =>
      rw [fitsPlaces_cons_cons]
      refine iff_of_false rejected fun fits => rejected ?_
      exact itemVerdict_eq_accept_iff.mpr fits.1

/-- A strict repetition without a bound is a list that takes variables too. -/
theorem check_test_iff_isListOf :
    Repetition.check { item := .test item, separator := separator } nodes =
        .accept ↔
      isListOf (fun node => item node || node.isVariable) separator nodes =
        true := by
  let repetition : Repetition := { item := .test item, separator := separator }
  have takesItem_eq : repetition.TakesItem =
      fun node => (item node || node.isVariable) = true := by
    funext node
    rw [TakesItem, ← ItemRule.verdict_eq_accept_iff, ItemRule.verdict,
      Verdict.ofBool_eq_accept_iff, Bool.or_eq_true, or_comm]
  rw [check_eq_accept_iff_walk, walk_eq_accept_iff_fitsPlaces, takesItem_eq,
    isListOf_iff_fitsPlaces]
  constructor
  · intro parts
    obtain ⟨isOdd, -, fits⟩ := parts
    exact ⟨isOdd rfl, fits⟩
  · intro parts
    obtain ⟨isOdd, fits⟩ := parts
    exact ⟨fun _ => isOdd, by simp, fits⟩

end Repetition

/-! Spaces. -/

theorem exists_alternates_iff_spaced {isItem : Node → Prop} :
    (∃ count, Alternates isItem (fun gap => gap.isSpace = true) count nodes) ↔
      ∃ values, Spaced values nodes ∧ ∀ value ∈ values, isItem value := by
  constructor
  · intro listed
    obtain ⟨count, alternates⟩ := listed
    induction alternates with
    | @one node item =>
        exact ⟨[node], .one node, List.forall_mem_singleton.mpr item⟩
    | @more node gap count rest item isSpace further ih =>
        obtain ⟨values, spaced, areItems⟩ := ih
        exact ⟨node :: values, .more node isSpace spaced,
          List.forall_mem_cons.mpr ⟨item, areItems⟩⟩
  · intro listed
    obtain ⟨values, spaced, areItems⟩ := listed
    induction spaced with
    | one value => exact ⟨1, .one (List.forall_mem_singleton.mp areItems)⟩
    | more value isSpace further ih =>
        obtain ⟨item, areItems⟩ := List.forall_mem_cons.mp areItems
        obtain ⟨count, alternates⟩ := ih areItems
        exact ⟨count + 1, .more item isSpace alternates⟩

/-- A loose list may be empty, and it may end in a space of its own. -/
theorem Grammar.check_looseSpaceList_iff {rule : ItemRule} :
    (looseSpaceList rule).check nodes = .accept ↔
      nodes = [] ∨ ∃ values listed, Spaced values listed ∧
        (∀ value ∈ values,
          value.isVariable = true ∨ rule.verdict value = .accept) ∧
        (nodes = listed ∨
          ∃ gap, gap.isSpace = true ∧ nodes = listed ++ [gap]) := by
  let repetition : Repetition :=
    { item := rule, separator := .space, isStrict := false }
  have takesItem_iff : ∀ node, node.isVariable = true ∨
      rule.verdict node = .accept ↔ repetition.TakesItem node := by
    intro node
    rw [ItemRule.verdict_eq_accept_iff]
    rfl
  have listed_iff (listed : List Node) :
      (∃ count, Alternates repetition.TakesItem repetition.IsGap count
          listed) ↔
        ∃ values, Spaced values listed ∧
          ∀ value ∈ values, repetition.TakesItem value := by
    rw [Repetition.isGap_of_space rfl]
    exact exists_alternates_iff_spaced
  simp only [takesItem_iff]
  rw [looseSpaceList, check, Repetition.check_eq_accept_iff_describes]
  constructor
  · intro described
    cases described with
    | items alternates =>
        obtain ⟨values, spaced, areItems⟩ :=
          (listed_iff nodes).mp ⟨_, alternates⟩
        exact .inr ⟨values, nodes, spaced, areItems, .inl rfl⟩
    | empty => exact .inl rfl
    | @trailing count listed gap loose alternates isGap =>
        obtain ⟨values, spaced, areItems⟩ :=
          (listed_iff listed).mp ⟨_, alternates⟩
        exact .inr ⟨values, listed, spaced, areItems, .inr ⟨gap, isGap, rfl⟩⟩
  · intro parts
    obtain rfl | ⟨values, listed, spaced, areItems, ending⟩ := parts
    · exact .empty rfl
    · obtain ⟨count, alternates⟩ :=
        (listed_iff listed).mpr ⟨values, spaced, areItems⟩
      obtain rfl | ⟨gap, isSpace, rfl⟩ := ending
      · exact .items alternates nofun
      · exact .trailing rfl alternates isSpace nofun

/-! Groups. -/

section Groups

variable {α : Type} {isBreak : α → Bool}

theorem groupsBy_eq_splitOnP (elements : List α) :
    groupsBy isBreak elements = elements.splitOnP isBreak := by
  induction elements with
  | nil => rfl
  | cons element rest ih =>
      rw [groupsBy, List.splitOnP_cons_eq_if_modifyHead, ih]

theorem length_groupsBy (elements : List α) :
    (groupsBy isBreak elements).length = elements.countP isBreak + 1 := by
  induction elements with
  | nil => rfl
  | cons element rest ih =>
      rw [groupsBy]
      split
      next breaks => rw [List.length_cons, ih, List.countP_cons_of_pos breaks]
      next stays =>
        rw [List.length_modifyHead, ih, List.countP_cons_of_neg stays]

end Groups

/-- The group is one item, and the item passes the test. -/
def IsOne (item : Node → Bool) (group : List Node) : Prop :=
  ∃ node, group = [node] ∧ item node = true

/-- The test passes over commas. -/
def RejectsCommas (item : Node → Bool) : Prop :=
  ∀ node, node.isComma = true → item node = false

theorem not_isOne_nil : ¬ IsOne item [] := by
  intro isOne
  obtain ⟨node, isNil, -⟩ := isOne
  contradiction

theorem isOne_singleton_iff {node : Node} :
    IsOne item [node] ↔ item node = true := by
  constructor
  · intro isOne
    obtain ⟨other, same, passed⟩ := isOne
    rwa [(List.cons.inj same).1]
  · intro passed
    exact ⟨node, rfl, passed⟩

theorem not_isOne_cons_cons {first second : Node} {rest : List Node} :
    ¬ IsOne item (first :: second :: rest) := by
  intro isOne
  obtain ⟨node, isSingleton, -⟩ := isOne
  have nothingFollows := (List.cons.inj isSingleton).2
  contradiction

theorem rejectsCommas_of_divider
    (rejects : ∀ kind before after,
      item (.divider kind before after) = false) : RejectsCommas item := by
  intro node isComma
  cases node with
  | divider kind before after => exact rejects kind before after
  | word | space | quoted | call => contradiction

theorem RejectsCommas.isComma_eq_false (rejects : RejectsCommas item)
    {node : Node} (passed : item node = true) : node.isComma = false := by
  rw [← Bool.not_eq_true]
  intro isComma
  rw [rejects node isComma] at passed
  contradiction

theorem forall₂_isOne_commaGroups_cons_cons (rejects : RejectsCommas item)
    {node gap : Node} {rest : List Node} :
    List.Forall₂ IsOne (item :: items) (commaGroups (node :: gap :: rest)) ↔
      (item node = true ∧ gap.isComma = true) ∧
        List.Forall₂ IsOne items (commaGroups rest) := by
  constructor
  · intro fits
    cases first : node.isComma with
    | true =>
        rw [commaGroups, groupsBy, if_pos first] at fits
        cases fits with
        | cons one => exact absurd one not_isOne_nil
    | false =>
        cases second : gap.isComma with
        | true =>
            rw [commaGroups_cons_cons rest first second] at fits
            cases fits with
            | cons one further =>
                exact ⟨⟨isOne_singleton_iff.mp one, rfl⟩, further⟩
        | false =>
            obtain ⟨group, groups, isCons⟩ :=
              List.exists_cons_of_ne_nil (groupsBy_ne_nil Node.isComma rest)
            rw [commaGroups, groupsBy, first, groupsBy, second, isCons] at fits
            cases fits with
            | cons one => exact absurd one not_isOne_cons_cons
  · intro parts
    obtain ⟨⟨passed, isComma⟩, further⟩ := parts
    rw [commaGroups_cons_cons rest (rejects.isComma_eq_false passed) isComma]
    exact .cons (isOne_singleton_iff.mpr passed) further

theorem forall₂_isOne_commaGroups_singleton (rejects : RejectsCommas item)
    {node : Node} :
    List.Forall₂ IsOne (item :: items) (commaGroups [node]) ↔
      items = [] ∧ item node = true := by
  cases isComma : node.isComma with
  | true =>
      rw [commaGroups, groupsBy, if_pos isComma, rejects node isComma,
        List.forall₂_cons]
      exact iff_of_false (fun fits => not_isOne_nil fits.1) (by simp)
  | false =>
      rw [commaGroups, groupsBy, isComma, groupsBy]
      show List.Forall₂ IsOne (item :: items) [[node]] ↔ _
      rw [List.forall₂_cons, isOne_singleton_iff, List.forall₂_nil_right_iff,
        and_comm]

theorem isTupleOf_comma_iff
    (rejects : ∀ item ∈ items, RejectsCommas item) :
    isTupleOf .comma items nodes = true ↔
      List.Forall₂ IsOne items (commaGroups nodes) := by
  induction items generalizing nodes with
  | nil =>
      rw [List.forall₂_nil_left_iff]
      exact iff_of_false nofun (groupsBy_ne_nil Node.isComma nodes)
  | cons item items ih =>
      obtain ⟨itemRejects, othersReject⟩ := List.forall_mem_cons.mp rejects
      obtain _ | ⟨node, _ | ⟨gap, rest⟩⟩ := nodes
      · rw [commaGroups, groupsBy, List.forall₂_cons]
        exact iff_of_false (by simp [isTupleOf])
          fun fits => not_isOne_nil fits.1
      · rw [forall₂_isOne_commaGroups_singleton itemRejects]
        cases items with
        | nil => simp [isTupleOf]
        | cons => simp [isTupleOf]
      · rw [isTupleOf_cons_cons, Bool.and_eq_true, Bool.and_eq_true,
          ih othersReject, forall₂_isOne_commaGroups_cons_cons itemRejects]
        rfl

/-- A list is a tuple of some length, with one test for all its items. -/
theorem isListOf_comma_iff (rejects : RejectsCommas item) :
    isListOf item .comma nodes = true ↔
      ∀ group ∈ commaGroups nodes, IsOne item group := by
  have tuple_iff (count : Nat) :
      isTupleOf .comma (List.replicate count item) nodes = true ↔
        List.Forall₂ IsOne (List.replicate count item) (commaGroups nodes) := by
    apply isTupleOf_comma_iff
    intro other member
    rw [List.eq_of_mem_replicate member]
    exact rejects
  have groups_iff :
      List.Forall₂ IsOne (List.replicate (commaGroups nodes).length item)
          (commaGroups nodes) ↔
        ∀ group ∈ commaGroups nodes, IsOne item group := by
    rw [← List.map_const', List.forall₂_map_left_iff, List.forall₂_same]
  constructor
  · intro isList
    have isOdd := (isListOf_iff_fitsPlaces.mp isList).1
    obtain ⟨count, length_eq⟩ : ∃ count, nodes.length + 1 = 2 * count :=
      ⟨(nodes.length + 1) / 2, by omega⟩
    have fits := (tuple_iff count).mp (by
      rw [isTupleOf_replicate, isList, length_eq, beq_self_eq_true]
      rfl)
    have count_eq : count = (commaGroups nodes).length := by
      simpa using fits.length_eq
    rw [count_eq] at fits
    exact groups_iff.mp fits
  · intro areOne
    have isTuple := (tuple_iff _).mpr (groups_iff.mpr areOne)
    rw [isTupleOf_replicate, Bool.and_eq_true] at isTuple
    exact isTuple.1

/-- A call goes by its name and by the groups of what stands inside it. -/
theorem Signature.fits_call_iff {signature : Signature}
    (rejects : ∀ parameter ∈ signature.parameters, RejectsCommas parameter)
    {name before after : String} {args : List Node} {closed : Bool} :
    signature.fits (.call name before args after closed) = true ↔
      lowerCase name ∈ signature.names.map lowerCase ∧
        List.Forall₂ IsOne signature.parameters (commaGroups args) := by
  have named_iff : signature.names.any (sameName name) = true ↔
      lowerCase name ∈ signature.names.map lowerCase := by
    rw [List.any_eq_true, List.mem_map]
    exact exists_congr fun other =>
      and_congr_right' (beq_iff_eq.trans eq_comm)
  rw [fits, Node.argsOf?, ← named_iff, ← isTupleOf_comma_iff rejects]
  split
  next named => simp [named]
  next unnamed => simp [unnamed]

/-- The three walks go by places, and they agree with each other. With commas
between the items they also agree with the groups, which are the whole sequence
apart from its commas. -/
theorem walks_agree_with_groups (item : Node → Bool)
    (items : List (Node → Bool)) (separator : Separator) (nodes : List Node) :
    (isListOf item separator nodes = true ↔
      nodes.length % 2 = 1 ∧
        FitsPlaces (fun _ node => item node = true)
          (fun gap => separator.accepts gap = true) nodes) ∧
    (isTupleOf separator items nodes = true ↔
      nodes.length + 1 = 2 * items.length ∧
        FitsPlaces (fun index node => items[index]?.any (· node) = true)
          (fun gap => separator.accepts gap = true) nodes) ∧
    (Repetition.check { item := .test item, separator := separator } nodes =
        .accept ↔
      isListOf (fun node => item node || node.isVariable) separator nodes =
        true) ∧
    (∀ count, 1 ≤ count →
      (isTupleOf separator (List.replicate count item) nodes = true ↔
        isListOf item separator nodes = true ∧
          nodes.length = 2 * count - 1)) ∧
    (RejectsCommas item →
      (isListOf item .comma nodes = true ↔
        ∀ group ∈ commaGroups nodes, IsOne item group)) ∧
    ((∀ item ∈ items, RejectsCommas item) →
      (isTupleOf .comma items nodes = true ↔
        List.Forall₂ IsOne items (commaGroups nodes))) ∧
    (commaGroups nodes).length = nodes.countP Node.isComma + 1 ∧
    (∀ group ∈ commaGroups nodes, ∀ node ∈ group, node.isComma = false) ∧
    (List.zipWith (· ++ ·) (commaGroups nodes)
      ((nodes.filter Node.isComma).map ([·]) ++ [[]])).flatten = nodes := by
  refine ⟨isListOf_iff_fitsPlaces, isTupleOf_iff_fitsPlaces,
    Repetition.check_test_iff_isListOf, ?_, isListOf_comma_iff,
    isTupleOf_comma_iff, length_groupsBy nodes, ?_, ?_⟩
  · intro count positive
    have lengths : nodes.length + 1 = 2 * count ↔
        nodes.length = 2 * count - 1 := by
      omega
    rw [isTupleOf_replicate, Bool.and_eq_true, beq_iff_eq, lengths]
  · intro group isGroup node inGroup
    exact (exists_mem_groupsBy_iff.mp ⟨group, isGroup, inGroup⟩).2
  · rw [commaGroups, groupsBy_eq_splitOnP]
    exact List.splitOnP_spec nodes

theorem walks_agree_with_groups_numbers :
    RejectsCommas Node.isNumber ∧
      isListOf Node.isNumber .comma
        [.word "1", .divider .comma "" " ", .word ".5"] = true ∧
      (∀ group ∈ [[.word "1"], [.word ".5"]], IsOne Node.isNumber group) ∧
      isTupleOf .comma (List.replicate 2 Node.isNumber)
        [.word "1", .divider .comma "" " ", .word ".5"] = true ∧
      List.Forall₂ IsOne (List.replicate 2 Node.isNumber)
        [[.word "1"], [.word ".5"]] := by
  have rejects : RejectsCommas Node.isNumber :=
    rejectsCommas_of_divider fun _ _ _ => rfl
  have isList : isListOf Node.isNumber .comma
      [.word "1", .divider .comma "" " ", .word ".5"] = true := by
    decide +kernel
  obtain ⟨-, -, -, replicate_iff, list_iff, tuple_iff, -⟩ :=
    walks_agree_with_groups Node.isNumber (List.replicate 2 Node.isNumber)
      .comma [.word "1", .divider .comma "" " ", .word ".5"]
  have isTuple := (replicate_iff 2 (by decide)).mpr ⟨isList, rfl⟩
  have allReject : ∀ item ∈ List.replicate 2 Node.isNumber,
      RejectsCommas item := by
    simpa using rejects
  exact ⟨rejects, isList, (list_iff rejects).mp isList, isTuple,
    (tuple_iff allReject).mp isTuple⟩

end StyleValue
