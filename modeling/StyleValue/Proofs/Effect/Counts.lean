import StyleValue.Proofs.Effect.Shadow

/-! A shadow can be told by counting. What the reading keeps are counts of the
items it has met, and no item counts twice, because lengths, colors, variables
and keywords exclude each other. The one rule that looks at the order is about
the lengths of a shadow that opens with a length. -/

namespace StyleValue

/-! No item is of two kinds. -/

namespace Node

theorem eq_false_of_excludes {first second : Bool}
    (excludes : first = true → second = false) (holds : second = true) :
    first = false := by
  rw [Bool.eq_false_iff]
  intro found
  rw [excludes found] at holds
  contradiction

theorem kinds_of_isInset {node : Node}
    (isInset : node.isKeyword ["inset"] = true) :
    node.isLength = false ∧ node.isColor = false ∧ node.isVariable = false :=
  not_isKeyword (by decide +kernel) isInset

theorem kinds_of_isLength {node : Node} (isLength : node.isLength = true) :
    node.isColor = false ∧ node.isVariable = false ∧
      node.isKeyword ["inset"] = false :=
  ⟨isColor_of_isLength isLength,
    eq_false_of_excludes isLength_of_isVariable isLength,
    eq_false_of_excludes (fun isInset => (kinds_of_isInset isInset).1) isLength⟩

theorem kinds_of_isColor {node : Node} (isColor : node.isColor = true) :
    node.isLength = false ∧ node.isVariable = false ∧
      node.isKeyword ["inset"] = false :=
  ⟨eq_false_of_excludes isColor_of_isLength isColor,
    eq_false_of_excludes isColor_of_isVariable isColor,
    eq_false_of_excludes (fun isInset => (kinds_of_isInset isInset).2.1) isColor⟩

theorem kinds_of_isVariable {node : Node} (isVariable : node.isVariable = true) :
    node.isLength = false ∧ node.isColor = false ∧
      node.isKeyword ["inset"] = false :=
  ⟨isLength_of_isVariable isVariable, isColor_of_isVariable isVariable,
    isWordThat_of_isVariable isVariable _⟩

/-- An item that may stand in a shadow. -/
def IsShadowItem (allowsInset : Bool) (node : Node) : Prop :=
  node.isLength = true ∨ node.isColor = true ∨ node.isVariable = true ∨
    allowsInset = true ∧ node.isKeyword ["inset"] = true

theorem kinds_of_isSpace {node : Node} (isSpace : node.isSpace = true) :
    node.isLength = false ∧ node.isColor = false ∧ node.isVariable = false ∧
      node.isKeyword ["inset"] = false := by
  cases node with
  | space => exact ⟨rfl, rfl, rfl, rfl⟩
  | _ => contradiction

end Node

/-- Two kinds of nodes take turns, the first of them at the even places. -/
def TakeTurns (isEven isOdd : Node → Prop) (nodes : List Node) : Prop :=
  ∀ (index : Nat) (node : Node), nodes[index]? = some node →
    (index % 2 = 0 → isEven node) ∧ (index % 2 = 1 → isOdd node)

theorem takeTurns_nil (isEven isOdd : Node → Prop) :
    TakeTurns isEven isOdd [] := by
  intro index node found
  rw [List.getElem?_nil] at found
  contradiction

theorem takeTurns_cons {isEven isOdd : Node → Prop} {node : Node}
    {nodes : List Node} :
    TakeTurns isEven isOdd (node :: nodes) ↔
      isEven node ∧ TakeTurns isOdd isEven nodes := by
  constructor
  · intro turns
    refine ⟨(turns 0 node rfl).1 rfl, fun index other found => ?_⟩
    have shifted := turns (index + 1) other (by simpa using found)
    exact ⟨fun isEven => shifted.2 (by omega), fun isOdd => shifted.1 (by omega)⟩
  · rintro ⟨isFirst, turns⟩ index other found
    cases index with
    | zero =>
        cases Option.some.inj found
        exact ⟨fun _ => isFirst, fun isOdd => absurd isOdd (by decide)⟩
    | succ index =>
        have shifted := turns index other (by simpa using found)
        exact ⟨fun isEven => shifted.2 (by omega),
          fun isOdd => shifted.1 (by omega)⟩

namespace ShadowParts

variable {style : ShadowStyle} {opensWithLength : Bool}
  {parts next : ShadowParts} {node : Node} {nodes : List Node}

/-! One item. -/

/-- The counts after a further item. -/
def plus (parts : ShadowParts) (node : Node) : ShadowParts where
  lengths := parts.lengths + node.isLength.toNat
  hasColor := parts.hasColor || node.isColor
  hasInset := parts.hasInset || node.isKeyword ["inset"]
  hasVariable := parts.hasVariable || node.isVariable

/-- The counts leave room for the item. -/
structure Allows (style : ShadowStyle) (opensWithLength : Bool)
    (parts : ShadowParts) (node : Node) : Prop where
  length : node.isLength = true → parts.lengths < style.maxLengths
  ordered : node.isLength = true → opensWithLength = true →
    parts.hasColor = true → parts.lengths = 0
  color : node.isColor = true → parts.hasColor = false
  inset : node.isKeyword ["inset"] = true → parts.hasInset = false

theorem Adds.isShadowItem (adds : Adds style opensWithLength parts node next) :
    node.IsShadowItem style.allowsInset ∧
      Allows style opensWithLength parts node ∧ next = parts.plus node := by
  cases adds with
  | length isLength mayFollow fits =>
      obtain ⟨notColor, notVariable, notInset⟩ := Node.kinds_of_isLength isLength
      refine ⟨.inl isLength, ⟨fun _ => fits, fun _ => mayFollow, ?_, ?_⟩, ?_⟩
      · simp [notColor]
      · simp [notInset]
      · simp [plus, isLength, notColor, notVariable, notInset]
  | color notLength isColor isFirst =>
      obtain ⟨-, notVariable, notInset⟩ := Node.kinds_of_isColor isColor
      refine ⟨.inr (.inl isColor), ⟨?_, ?_, fun _ => isFirst, ?_⟩, ?_⟩
      · simp [notLength]
      · simp [notLength]
      · simp [notInset]
      · simp [plus, notLength, isColor, notVariable, notInset]
  | reference notLength notColor isVariable =>
      obtain ⟨-, -, notInset⟩ := Node.kinds_of_isVariable isVariable
      refine ⟨.inr (.inr (.inl isVariable)), ⟨?_, ?_, ?_, ?_⟩, ?_⟩
      · simp [notLength]
      · simp [notLength]
      · simp [notColor]
      · simp [notInset]
      · simp [plus, notLength, notColor, isVariable, notInset]
  | inset notLength notColor notVariable allowed isFirst isInset =>
      refine ⟨.inr (.inr (.inr ⟨allowed, isInset⟩)),
        ⟨?_, ?_, ?_, fun _ => isFirst⟩, ?_⟩
      · simp [notLength]
      · simp [notLength]
      · simp [notColor]
      · simp [plus, notLength, notColor, notVariable, isInset]

theorem Allows.add?_eq (allows : Allows style opensWithLength parts node)
    (isItem : node.IsShadowItem style.allowsInset) :
    parts.add? style opensWithLength node = some (parts.plus node) := by
  have adds : ∃ next, Adds style opensWithLength parts node next := by
    rcases isItem with isLength | isColor | isVariable | ⟨allowed, isInset⟩
    · exact ⟨_, .length isLength (allows.ordered isLength)
        (allows.length isLength)⟩
    · exact ⟨_, .color (Node.kinds_of_isColor isColor).1 isColor
        (allows.color isColor)⟩
    · obtain ⟨notLength, notColor, -⟩ := Node.kinds_of_isVariable isVariable
      exact ⟨_, .reference notLength notColor isVariable⟩
    · obtain ⟨notLength, notColor, notVariable⟩ := Node.kinds_of_isInset isInset
      exact ⟨_, .inset notLength notColor notVariable allowed
        (allows.inset isInset) isInset⟩
  obtain ⟨next, adds⟩ := adds
  rw [adds.add?_eq, adds.isShadowItem.2.2]

theorem add?_eq_some_iff :
    parts.add? style opensWithLength node = some next ↔
      node.IsShadowItem style.allowsInset ∧
        Allows style opensWithLength parts node ∧ next = parts.plus node := by
  constructor
  · intro added
    exact (adds_of_add? added).isShadowItem
  · rintro ⟨isItem, allows, rfl⟩
    exact allows.add?_eq isItem

/-! All items. -/

def plusAll (parts : ShadowParts) (nodes : List Node) : ShadowParts where
  lengths := parts.lengths + nodes.countP Node.isLength
  hasColor := parts.hasColor || nodes.any Node.isColor
  hasInset := parts.hasInset || nodes.any (Node.isKeyword ["inset"])
  hasVariable := parts.hasVariable || nodes.any Node.isVariable

theorem plusAll_nil (parts : ShadowParts) : parts.plusAll [] = parts := by
  simp [plusAll]

theorem plusAll_cons (parts : ShadowParts) (node : Node) (nodes : List Node) :
    parts.plusAll (node :: nodes) = (parts.plus node).plusAll nodes := by
  simp only [plusAll, plus, List.countP_cons, List.any_cons, Bool.or_assoc,
    mk.injEq, and_true]
  cases node.isLength with
  | false => rfl
  | true =>
      rw [if_pos rfl, Bool.toNat_true]
      omega

theorem plus_of_isSpace (isSpace : node.isSpace = true) :
    parts.plus node = parts := by
  obtain ⟨notLength, notColor, notVariable, notInset⟩ :=
    Node.kinds_of_isSpace isSpace
  simp [plus, notLength, notColor, notVariable, notInset]

/-- The counts leave room for all the items. -/
structure AllowsAll (style : ShadowStyle) (opensWithLength : Bool)
    (parts : ShadowParts) (nodes : List Node) : Prop where
  lengths : parts.lengths + nodes.countP Node.isLength ≤ style.maxLengths
  colors : parts.hasColor.toNat + nodes.countP Node.isColor ≤ 1
  insets : parts.hasInset.toNat + nodes.countP (Node.isKeyword ["inset"]) ≤ 1
  ordered : opensWithLength = true →
    nodes.Pairwise fun earlier later =>
      earlier.isColor = true → later.isLength = false
  follows : opensWithLength = true → parts.hasColor = true →
    ∀ node ∈ nodes, node.isLength = false

/-- A shadow that opens with a length has read one, or is about to. -/
def Opens (opensWithLength : Bool) (parts : ShadowParts) (nodes : List Node) :
    Prop :=
  opensWithLength = true →
    0 < parts.lengths ∨
      parts.hasColor = false ∧ nodes.head?.any Node.isLength = true

theorem Opens.plus (opens : Opens opensWithLength parts (node :: nodes))
    (rest : List Node) : Opens opensWithLength (parts.plus node) rest := by
  intro isOpened
  left
  rcases opens isOpened with positive | ⟨-, isLength⟩
  · exact Nat.add_pos_left positive _
  · rw [List.head?_cons, Option.any_some] at isLength
    simp [ShadowParts.plus, isLength]

/-- A mark that may be met once. -/
theorem mark_cons_iff (isMark : Node → Bool) (isMet : Bool) (node : Node)
    (nodes : List Node) :
    isMet.toNat + (node :: nodes).countP isMark ≤ 1 ↔
      (isMark node = true → isMet = false) ∧
        (isMet || isMark node).toNat + nodes.countP isMark ≤ 1 := by
  rw [List.countP_cons]
  cases isMet with
  | false =>
      cases isMark node with
      | false => simp
      | true => simp [Nat.add_comm]
  | true =>
      cases isMark node with
      | false => simp
      | true => simp

theorem lengths_cons_iff (most count : Nat) (node : Node) (nodes : List Node) :
    count + (node :: nodes).countP Node.isLength ≤ most ↔
      (node.isLength = true → count < most) ∧
        count + node.isLength.toNat + nodes.countP Node.isLength ≤ most := by
  rw [List.countP_cons]
  cases node.isLength with
  | false => simp
  | true =>
      simp only [if_true, Bool.toNat_true, forall_const]
      omega

theorem allowsAll_nil (fits : parts.lengths ≤ style.maxLengths) :
    AllowsAll style opensWithLength parts [] where
  lengths := fits
  colors := Bool.toNat_le _
  insets := Bool.toNat_le _
  ordered _ := .nil
  follows _ _ := List.forall_mem_nil _

theorem allowsAll_cons_iff
    (opens : Opens opensWithLength parts (node :: nodes)) :
    AllowsAll style opensWithLength parts (node :: nodes) ↔
      Allows style opensWithLength parts node ∧
        AllowsAll style opensWithLength (parts.plus node) nodes := by
  constructor
  · rintro ⟨lengths, colors, insets, ordered, follows⟩
    obtain ⟨length, lengths⟩ := (lengths_cons_iff _ _ _ _).mp lengths
    obtain ⟨color, colors⟩ := (mark_cons_iff _ _ _ _).mp colors
    obtain ⟨inset, insets⟩ := (mark_cons_iff _ _ _ _).mp insets
    have clear : node.isLength = true → opensWithLength = true →
        parts.hasColor = true → parts.lengths = 0 := by
      intro isLength isOpened hasColor
      rw [follows isOpened hasColor node List.mem_cons_self] at isLength
      contradiction
    refine ⟨⟨length, clear, color, inset⟩, lengths, colors, insets,
      fun isOpened => (List.pairwise_cons.mp (ordered isOpened)).2, ?_⟩
    intro isOpened hasColor other member
    rcases Bool.or_eq_true_iff.mp hasColor with before | here
    · exact follows isOpened before other (List.mem_cons_of_mem _ member)
    · exact (List.pairwise_cons.mp (ordered isOpened)).1 other member here
  · rintro ⟨⟨length, clear, color, inset⟩, lengths, colors, insets, ordered,
      follows⟩
    refine ⟨(lengths_cons_iff _ _ _ _).mpr ⟨length, lengths⟩,
      (mark_cons_iff _ _ _ _).mpr ⟨color, colors⟩,
      (mark_cons_iff _ _ _ _).mpr ⟨inset, insets⟩, ?_, ?_⟩
    · intro isOpened
      refine List.pairwise_cons.mpr ⟨fun other member here => ?_,
        ordered isOpened⟩
      exact follows isOpened (Bool.or_eq_true_iff.mpr (.inr here)) other member
    · intro isOpened hasColor other member
      rcases List.mem_cons.mp member with rfl | member
      · rw [Bool.eq_false_iff]
        intro isLength
        -- The first length is read before any color is.
        rcases opens isOpened with positive | ⟨noColor, -⟩
        · exact Nat.ne_of_gt positive (clear isLength isOpened hasColor)
        · rw [noColor] at hasColor
          contradiction
      · exact follows isOpened (Bool.or_eq_true_iff.mpr (.inl hasColor)) other
          member

theorem allows_of_isSpace (isSpace : node.isSpace = true) :
    Allows style opensWithLength parts node := by
  obtain ⟨notLength, notColor, -, notInset⟩ := Node.kinds_of_isSpace isSpace
  constructor <;> simp [notLength, notColor, notInset]

theorem Allows.lengths_le (allows : Allows style opensWithLength parts node)
    (fits : parts.lengths ≤ style.maxLengths) :
    (parts.plus node).lengths ≤ style.maxLengths := by
  have fitsNext := allows.length
  simp only [plus]
  cases isLength : node.isLength with
  | false => exact fits
  | true => exact fitsNext isLength

/-- The whole reading: items and gaps take turns, and there is room for all. -/
theorem addAll?_eq_some_iff (fits : parts.lengths ≤ style.maxLengths)
    (opens : Opens opensWithLength parts nodes) :
    parts.addAll? style opensWithLength nodes = some next ↔
      TakeTurns (Node.IsShadowItem style.allowsInset) (·.isSpace = true)
          nodes ∧
        AllowsAll style opensWithLength parts nodes ∧
        next = parts.plusAll nodes := by
  fun_induction ShadowParts.addAll? style opensWithLength parts nodes with
  | case1 parts =>
      simp only [takeTurns_nil, allowsAll_nil fits, plusAll_nil, true_and,
        Option.some.injEq, eq_comm]
  | case2 parts node =>
      simp only [add?_eq_some_iff, takeTurns_cons, takeTurns_nil, and_true,
        allowsAll_cons_iff opens, plusAll_cons, plusAll_nil]
      refine and_congr_right fun _ => and_congr_left fun _ => ?_
      refine (and_iff_left_of_imp fun allows => ?_).symm
      exact allowsAll_nil (allows.lengths_le fits)
  | case3 parts node gap rest notAdded =>
      refine iff_of_false (Option.some_ne_none _).symm ?_
      rintro ⟨turns, allowsAll, -⟩
      have allows := ((allowsAll_cons_iff opens).mp allowsAll).1
      rw [allows.add?_eq (takeTurns_cons.mp turns).1] at notAdded
      contradiction
  | case4 parts node gap rest parts' nodeAdded isGap ih =>
      obtain ⟨isItem, allows, rfl⟩ := add?_eq_some_iff.mp nodeAdded
      rw [ih (allows.lengths_le fits) (opens.plus rest)]
      simp only [takeTurns_cons, allowsAll_cons_iff opens,
        allowsAll_cons_iff (opens.plus (gap :: rest)), plusAll_cons,
        plus_of_isSpace isGap, isItem, isGap, allows, allows_of_isSpace isGap,
        true_and]
  | case5 parts node gap rest parts' nodeAdded notGap =>
      refine iff_of_false (Option.some_ne_none _).symm ?_
      rintro ⟨turns, -⟩
      exact notGap (takeTurns_cons.mp (takeTurns_cons.mp turns).2).1

end ShadowParts

/-- What the counts of a shadow say of it. -/
structure IsCountedShadow (maxLengths : Nat) (allowsInset : Bool)
    (maxNodes : Nat) (group : List Node) : Prop where
  gaps : ∀ (index : Nat) (node : Node), group[index]? = some node →
    index % 2 = 1 → node.isSpace = true
  items : ∀ (index : Nat) (node : Node), group[index]? = some node →
    index % 2 = 0 →
      node.isLength = true ∨ node.isColor = true ∨ node.isVariable = true ∨
        allowsInset = true ∧ node.isKeyword ["inset"] = true
  lengths : group.countP Node.isLength ≤ maxLengths
  colors : group.countP Node.isColor ≤ 1
  insets : group.countP (Node.isKeyword ["inset"]) ≤ 1
  enough : (∃ node ∈ group, node.isVariable = true) ∨
    2 ≤ group.countP Node.isLength
  size : group.length ≤ maxNodes
  ordered : group.head?.any Node.isLength = true →
    group.Pairwise fun earlier later =>
      earlier.isColor = true → later.isLength = false

theorem isShadow_iff (style : ShadowStyle) (group : List Node) :
    isShadow style group = true ↔
      IsCountedShadow style.maxLengths style.allowsInset style.maxNodes group := by
  have opens : ShadowParts.Opens (group.head?.any Node.isLength) {} group :=
    fun isOpened => .inr ⟨rfl, isOpened⟩
  rw [isShadow, Option.any_eq_true]
  simp only [ShadowParts.addAll?_eq_some_iff (Nat.zero_le _) opens,
    Bool.and_eq_true, Bool.or_eq_true, decide_eq_true_eq]
  constructor
  · rintro ⟨parts, ⟨turns, allowsAll, rfl⟩, enough, size⟩
    exact {
      gaps := fun index node found => (turns index node found).2
      items := fun index node found => (turns index node found).1
      lengths := by simpa using allowsAll.lengths
      colors := by simpa using allowsAll.colors
      insets := by simpa using allowsAll.insets
      enough := by simpa [ShadowParts.plusAll] using enough
      size := size
      ordered := allowsAll.ordered }
  · intro counted
    refine ⟨_, ⟨fun index node found => ⟨counted.items index node found,
      counted.gaps index node found⟩, ?_, rfl⟩, ?_, counted.size⟩
    · exact {
        lengths := by simpa using counted.lengths
        colors := by simpa using counted.colors
        insets := by simpa using counted.insets
        ordered := counted.ordered
        follows := fun _ hasColor => absurd hasColor Bool.false_ne_true }
    · simpa [ShadowParts.plusAll] using counted.enough

/-- A shadow is told by its counts. -/
theorem isShadow_iff_isCountedShadow (group : List Node) :
    (isShadow .text group = true ↔ IsCountedShadow 3 false 7 group) ∧
      (isShadow .box group = true ↔ IsCountedShadow 4 true 11 group) :=
  ⟨isShadow_iff .text group, isShadow_iff .box group⟩

end StyleValue
