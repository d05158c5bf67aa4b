import StyleValue.Geometry.Shape
import StyleValue.Paint.Gradient
import StyleValue.Proofs.Name.Keyword
import StyleValue.Proofs.Sequence.Spaced

/-! An extent with a clause `at <position>` after it, or one of the two. The
first `at` that could be an item opens the clause. That is the right one, because
no item of an extent is an `at`. -/

namespace StyleValue

namespace Placement

variable {nodes before after : List Node} {mark : Node}

/-- No item of the sequence is `at`. -/
def Unmarked (nodes : List Node) : Prop :=
  ∀ node ∈ evenNodes nodes, node.isKeyword ["at"] = false

/-! The cut. -/

theorem unmarked_cons_cons {node gap : Node} :
    Unmarked (node :: gap :: nodes) ↔
      node.isKeyword ["at"] = false ∧ Unmarked nodes :=
  List.forall_mem_cons

theorem cutAt?_eq_none_iff : cutAt? nodes = none ↔ Unmarked nodes := by
  fun_induction cutAt? nodes with
  | case1 => simp [Unmarked, evenNodes]
  | case2 node rest isMark =>
      refine iff_of_false (Option.some_ne_none _) fun unmarked => ?_
      have isItem : node ∈ evenNodes (node :: rest) := by
        cases rest with
        | nil => exact List.mem_singleton_self node
        | cons => exact List.mem_cons_self
      rw [unmarked node isItem] at isMark
      contradiction
  | case3 node notMark => simpa [Unmarked, evenNodes] using notMark
  | case4 node notMark gap rest ih =>
      rw [Bool.not_eq_true] at notMark
      rw [Option.map_eq_none_iff, ih, unmarked_cons_cons, notMark,
        eq_self, true_and]

theorem exists_of_cutAt? (found : cutAt? nodes = some (before, after)) :
    ∃ mark, nodes = before ++ mark :: after ∧
      mark.isKeyword ["at"] = true ∧ before.length % 2 = 0 ∧
      Unmarked before := by
  fun_induction cutAt? nodes generalizing before with
  | case1 => contradiction
  | case2 node rest isMark =>
      cases Option.some.inj found
      exact ⟨node, rfl, isMark, rfl, List.forall_mem_nil _⟩
  | case3 => contradiction
  | case4 node notMark gap rest ih =>
      obtain ⟨⟨_, _⟩, isCut, same⟩ := Option.map_eq_some_iff.mp found
      cases same
      obtain ⟨mark, rfl, isMark, even, unmarked⟩ := ih isCut
      rw [Bool.not_eq_true] at notMark
      refine ⟨mark, rfl, isMark, ?_, unmarked_cons_cons.mpr ⟨notMark, unmarked⟩⟩
      simp only [List.length_cons]
      omega

theorem cutAt?_cons (isMark : mark.isKeyword ["at"] = true)
    (after : List Node) : cutAt? (mark :: after) = some ([], after) := by
  rw [cutAt?.eq_def]
  exact if_pos isMark

theorem cutAt?_append (isMark : mark.isKeyword ["at"] = true) :
    (before : List Node) → before.length % 2 = 0 → Unmarked before →
      cutAt? (before ++ mark :: after) = some (before, after)
  | [], _, _ => cutAt?_cons isMark after
  | [_], even, _ => by contradiction
  | node :: gap :: rest, even, unmarked => by
      obtain ⟨notMark, unmarked⟩ := unmarked_cons_cons.mp unmarked
      have restEven : rest.length % 2 = 0 := by
        simp only [List.length_cons] at even
        omega
      have further := cutAt?_append isMark rest restEven unmarked
      simp [cutAt?, notMark, further]

/-! The reading. -/

/-- What is read as a placement. -/
inductive Reads : List Node → Placement → Prop
  | extent {nodes : List Node} (unmarked : Unmarked nodes) :
      Reads nodes ⟨nodes, false⟩
  | position {mark gap : Node} {position : List Node}
      (isMark : mark.isKeyword ["at"] = true) (isSpace : gap.isSpace = true)
      (isPosition : isPosition position = true) :
      Reads (mark :: gap :: position) ⟨[], true⟩
  | both {extent position : List Node} {mark gap gap' : Node}
      (unmarked : Unmarked extent) (odd : extent.length % 2 = 1)
      (isSpace : gap.isSpace = true) (isMark : mark.isKeyword ["at"] = true)
      (isSpace' : gap'.isSpace = true)
      (isPosition : isPosition position = true) :
      Reads (extent ++ gap :: mark :: gap' :: position) ⟨extent, true⟩

variable {placement : Placement}

theorem unmarked_append_odd {extent : List Node} (gap : Node)
    (odd : extent.length % 2 = 1) :
    Unmarked (extent ++ [gap]) ↔ Unmarked extent := by
  rw [Unmarked, evenNodes_append_odd gap extent odd, Unmarked]

theorem reads_of_read? (found : read? nodes = some placement) :
    Reads nodes placement := by
  rw [read?] at found
  split at found
  next uncut =>
    cases Option.some.inj found
    exact .extent (cutAt?_eq_none_iff.mp uncut)
  next => contradiction
  next before gap' position cut =>
    split at found
    next conditions =>
      cases Option.some.inj found
      simp only [Bool.and_eq_true] at conditions
      obtain ⟨⟨isSpace', isPosition⟩, isSpace⟩ := conditions
      obtain ⟨mark, rfl, isMark, even, unmarked⟩ := exists_of_cutAt? cut
      rcases before.eq_nil_or_concat with rfl | ⟨extent, gap, rfl⟩
      · exact .position isMark isSpace' isPosition
      · rw [List.concat_eq_append] at even unmarked isSpace ⊢
        rw [List.length_append, List.length_singleton] at even
        have odd : extent.length % 2 = 1 := by omega
        rw [List.dropLast_concat, List.append_assoc]
        rw [List.getLast?_concat, Option.all_some] at isSpace
        exact .both ((unmarked_append_odd gap odd).mp unmarked) odd isSpace isMark
          isSpace' isPosition
    next => contradiction

theorem Reads.read?_eq (reads : Reads nodes placement) :
    read? nodes = some placement := by
  cases reads with
  | extent unmarked => rw [read?, cutAt?_eq_none_iff.mpr unmarked]
  | position isMark isSpace isPosition =>
      simp [read?, cutAt?_cons isMark, isSpace, isPosition]
  | @both extent position mark gap gap' unmarked odd isSpace isMark isSpace'
      isPosition =>
      have even : (extent ++ [gap]).length % 2 = 0 := by
        rw [List.length_append, List.length_singleton]
        omega
      have cut : cutAt? (extent ++ [gap] ++ mark :: gap' :: position) =
          some (extent ++ [gap], gap' :: position) :=
        cutAt?_append isMark _ even ((unmarked_append_odd gap odd).mpr unmarked)
      rw [List.append_assoc, List.singleton_append] at cut
      simp [read?, cut, isSpace, isSpace', isPosition]

theorem any_read?_iff {test : Placement → Bool} :
    (read? nodes).any test = true ↔
      ∃ placement, Reads nodes placement ∧ test placement = true := by
  rw [Option.any_eq_true]
  constructor
  · intro accepted
    obtain ⟨placement, found, passed⟩ := accepted
    exact ⟨placement, reads_of_read? found, passed⟩
  · intro accepted
    obtain ⟨placement, reads, passed⟩ := accepted
    exact ⟨placement, reads.read?_eq, passed⟩

end Placement

/-! Extents of figures. -/

/-- An extent, a clause `at <position>`, or the clause after the extent. -/
inductive IsPlaced (IsExtent : List Node → Prop) : List Node → Prop
  | extent {nodes : List Node} (isExtent : IsExtent nodes) :
      IsPlaced IsExtent nodes
  | position {mark gap : Node} {position : List Node}
      (isMark : mark.isKeyword ["at"] = true) (isSpace : gap.isSpace = true)
      (isPosition : isPosition position = true) :
      IsPlaced IsExtent (mark :: gap :: position)
  | both {extent position : List Node} {mark gap gap' : Node}
      (isExtent : IsExtent extent) (isSpace : gap.isSpace = true)
      (isMark : mark.isKeyword ["at"] = true) (isSpace' : gap'.isSpace = true)
      (isPosition : isPosition position = true) :
      IsPlaced IsExtent (extent ++ gap :: mark :: gap' :: position)

theorem Spaced.unmarked {values nodes : List Node} (spaced : Spaced values nodes)
    (notMarks : ∀ value ∈ values, value.isKeyword ["at"] = false) :
    Placement.Unmarked nodes := by
  rw [Placement.Unmarked, spaced.evenNodes_eq]
  exact notMarks

open Placement (Unmarked Reads)

theorem isPlaced_iff {IsExtent : List Node → Prop}
    (separable : ∀ nodes, IsExtent nodes →
      nodes.length % 2 = 1 ∧ Unmarked nodes) {nodes : List Node} :
    IsPlaced IsExtent nodes ↔
      ∃ placement, Reads nodes placement ∧
        (placement.extent = [] ∧ placement.isPlaced = true ∨
          IsExtent placement.extent) := by
  constructor
  · intro isPlaced
    cases isPlaced with
    | extent isExtent =>
        exact ⟨_, .extent (separable _ isExtent).2, .inr isExtent⟩
    | position isMark isSpace isPosition =>
        exact ⟨_, .position isMark isSpace isPosition, .inl ⟨rfl, rfl⟩⟩
    | both isExtent isSpace isMark isSpace' isPosition =>
        obtain ⟨odd, unmarked⟩ := separable _ isExtent
        exact ⟨_, .both unmarked odd isSpace isMark isSpace' isPosition,
          .inr isExtent⟩
  · intro isRead
    obtain ⟨placement, reads, fits⟩ := isRead
    cases reads with
    | extent unmarked =>
        rcases fits with ⟨-, isPlaced⟩ | isExtent
        · contradiction
        · exact .extent isExtent
    | position isMark isSpace isPosition =>
        exact .position isMark isSpace isPosition
    | both unmarked odd isSpace isMark isSpace' isPosition =>
        rcases fits with ⟨rfl, -⟩ | isExtent
        · contradiction
        · exact .both isExtent isSpace isMark isSpace' isPosition

namespace Shape

/-- Radii with spaces between them. -/
def IsRadii (count : Nat) (nodes : List Node) : Prop :=
  ∃ values, Spaced values nodes ∧ values.length = count ∧
    ∀ value ∈ values, isRadius value = true

theorem isKeyword_at_of_isRadius {node : Node}
    (passed : isRadius node = true) : node.isKeyword ["at"] = false := by
  rcases Bool.or_eq_true_iff.mp passed with isQuantity | isKeyword
  · exact Node.isKeyword_of_isLengthPercentage (by decide +kernel) isQuantity
  · exact Node.isKeyword_eq_false (by decide +kernel) isKeyword

theorem IsRadii.separable {count : Nat} (nodes : List Node)
    (radii : IsRadii count nodes) :
    nodes.length % 2 = 1 ∧ Unmarked nodes := by
  obtain ⟨values, spaced, -, areRadii⟩ := radii
  exact ⟨spaced.length_odd, spaced.unmarked fun value member =>
    isKeyword_at_of_isRadius (areRadii value member)⟩

theorem isRound_iff {radii : Nat} {args : List Node} :
    isRound radii args = true ↔ args = [] ∨ IsPlaced (IsRadii radii) args := by
  rw [isRound, Placement.any_read?_iff, isPlaced_iff IsRadii.separable]
  simp only [Bool.or_eq_true, List.isEmpty_iff, isTupleOf_replicate_iff,
    ← IsRadii.eq_def]
  constructor
  · intro accepted
    obtain ⟨placement, reads, isEmpty | isRadii⟩ := accepted
    · cases reads with
      | extent unmarked => exact .inl isEmpty
      | position isMark isSpace isPosition =>
          exact .inr ⟨_, .position isMark isSpace isPosition,
            .inl ⟨rfl, rfl⟩⟩
      | both unmarked odd =>
          cases isEmpty
          contradiction
    · exact .inr ⟨placement, reads, .inr isRadii⟩
  · intro placed
    rcases placed with rfl | ⟨placement, reads, fits⟩
    · exact ⟨_, .extent (List.forall_mem_nil _), .inl rfl⟩
    · exact ⟨placement, reads, fits.imp_left And.left⟩

end Shape

namespace Gradient

/-- Values with spaces between them that make up a size. -/
def IsRadialExtent (nodes : List Node) : Prop :=
  ∃ values, Spaced values nodes ∧ isRadialSize values = true

def radialWords : List String :=
  ["circle", "ellipse", "closest-corner", "closest-side", "farthest-corner",
    "farthest-side"]

/-- What a radial size is made of. -/
def IsRadialItem (node : Node) : Prop :=
  node.isKeyword radialWords = true ∨ node.isLengthPercentage = true

theorem isRadialItem_of_isKeyword {node : Node} {keywords : List String}
    (subset : keywords ⊆ radialWords)
    (isKeyword : node.isKeyword keywords = true) : IsRadialItem node :=
  .inl (Node.isKeyword_of_subset subset isKeyword)

theorem isRadialItem_of_isLength {node : Node} (passed : node.isLength = true) :
    IsRadialItem node :=
  .inr (Bool.or_eq_true_iff.mpr (.inl passed))

theorem isRadialItem_of_isRadialSize {values : List Node} :
    isRadialSize values = true → ∀ value ∈ values, IsRadialItem value := by
  have shape : ∀ {node}, isShape node = true → IsRadialItem node :=
    isRadialItem_of_isKeyword (by decide)
  have extent : ∀ {node}, isExtent node = true → IsRadialItem node :=
    isRadialItem_of_isKeyword (by decide)
  have circle : ∀ {node}, isCircle node = true → IsRadialItem node :=
    isRadialItem_of_isKeyword (by decide)
  have ellipse : ∀ {node}, isEllipse node = true → IsRadialItem node :=
    isRadialItem_of_isKeyword (by decide)
  fun_cases isRadialSize values with
  | case1 => exact fun _ => List.forall_mem_nil _
  | case2 only =>
      simp only [Bool.or_eq_true, List.forall_mem_singleton]
      intro isSize
      rcases isSize with (passed | passed) | passed
      · exact shape passed
      · exact extent passed
      · exact isRadialItem_of_isLength passed
  | case3 first second =>
      simp only [Bool.or_eq_true, Bool.and_eq_true]
      rw [List.forall_mem_cons, List.forall_mem_singleton]
      intro isSize
      rcases isSize with (((passed | passed) | passed) | passed) | passed
      · exact passed.imp circle isRadialItem_of_isLength
      · exact passed.imp isRadialItem_of_isLength circle
      · exact passed.imp extent shape
      · exact passed.imp shape extent
      · exact passed.imp .inr .inr
  | case4 first second third =>
      simp only [Bool.or_eq_true, Bool.and_eq_true]
      rw [List.forall_mem_cons, List.forall_mem_cons, List.forall_mem_singleton]
      intro isSize
      rcases isSize with ⟨⟨isEllipse, isQuantity⟩, isQuantity'⟩ |
        ⟨⟨isQuantity, isQuantity'⟩, isEllipse⟩
      · exact ⟨ellipse isEllipse, .inr isQuantity, .inr isQuantity'⟩
      · exact ⟨.inr isQuantity, .inr isQuantity', ellipse isEllipse⟩
  | case5 => exact fun passed => absurd passed Bool.false_ne_true

theorem isKeyword_at_of_isRadialItem {node : Node} (isItem : IsRadialItem node) :
    node.isKeyword ["at"] = false := by
  rcases isItem with isKeyword | isQuantity
  · exact Node.isKeyword_eq_false (by decide +kernel) isKeyword
  · exact Node.isKeyword_of_isLengthPercentage (by decide +kernel) isQuantity

theorem IsRadialExtent.separable (nodes : List Node)
    (isExtent : IsRadialExtent nodes) :
    nodes.length % 2 = 1 ∧ Unmarked nodes := by
  obtain ⟨values, spaced, isSize⟩ := isExtent
  exact ⟨spaced.length_odd, spaced.unmarked fun value member =>
    isKeyword_at_of_isRadialItem (isRadialItem_of_isRadialSize isSize value member)⟩

theorem isRadialDefinition_iff {group : List Node} :
    isRadialDefinition group = true ↔ IsPlaced IsRadialExtent group := by
  rw [isRadialDefinition, Placement.any_read?_iff,
    isPlaced_iff IsRadialExtent.separable]
  refine exists_congr fun placement => and_congr_right fun _ => ?_
  cases isExtent : placement.extent with
  | nil =>
      have notExtent : ¬ IsRadialExtent [] := by
        intro isEmptyExtent
        obtain ⟨values, spaced, -⟩ := isEmptyExtent
        cases spaced
      simp [notExtent]
  | cons node rest => simp [any_spacedItems?_iff, IsRadialExtent]

end Gradient

end StyleValue
