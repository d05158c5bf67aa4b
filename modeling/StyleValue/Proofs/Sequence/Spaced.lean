import StyleValue.Sequence.Separated

/-! Values with a space between neighbours. The values stand at the even places,
so their number tells the length of the sequence. -/

namespace StyleValue

/-- `nodes` are the `values`, one at least, with one space between neighbours. -/
inductive Spaced : (values nodes : List Node) → Prop
  | one (value : Node) : Spaced [value] [value]
  | more {values nodes : List Node} {gap : Node} (value : Node)
      (isSpace : gap.isSpace = true) (further : Spaced values nodes) :
      Spaced (value :: values) (value :: gap :: nodes)

/-- The nodes at the even places. -/
def evenNodes : List Node → List Node
  | [] => []
  | [node] => [node]
  | node :: _ :: rest => node :: evenNodes rest

theorem evenNodes_append_odd (gap : Node) :
    (nodes : List Node) → nodes.length % 2 = 1 →
      evenNodes (nodes ++ [gap]) = evenNodes nodes
  | [], odd => by contradiction
  | [_], _ => rfl
  | node :: next :: rest, odd => by
      have further : rest.length % 2 = 1 := by
        simp only [List.length_cons] at odd
        omega
      exact congrArg (node :: ·) (evenNodes_append_odd gap rest further)

namespace Spaced

variable {values nodes : List Node}

theorem length_eq (spaced : Spaced values nodes) :
    nodes.length + 1 = 2 * values.length := by
  induction spaced with
  | one => rfl
  | more value isSpace further ih =>
      simp only [List.length_cons]
      omega

theorem length_odd (spaced : Spaced values nodes) : nodes.length % 2 = 1 := by
  have := spaced.length_eq
  omega

theorem ne_nil (spaced : Spaced values nodes) : values ≠ [] := by
  cases spaced with
  | one => exact List.cons_ne_nil _ _
  | more => exact List.cons_ne_nil _ _

theorem evenNodes_eq (spaced : Spaced values nodes) :
    evenNodes nodes = values := by
  induction spaced with
  | one => rfl
  | more value isSpace further ih => exact congrArg (value :: ·) ih

end Spaced

variable {nodes : List Node}

theorem spacedItems?_eq_some_iff {values : List Node} :
    spacedItems? nodes = some values ↔ Spaced values nodes := by
  constructor
  · intro found
    fun_induction spacedItems? nodes generalizing values with
    | case1 => contradiction
    | case2 node =>
        cases Option.some.inj found
        exact .one node
    | case3 node gap rest isSpace ih =>
        obtain ⟨further, isFurther, rfl⟩ := Option.map_eq_some_iff.mp found
        exact .more node isSpace (ih isFurther)
    | case4 => contradiction
  · intro spaced
    induction spaced with
    | one => rfl
    | more value isSpace further ih =>
        rw [spacedItems?, if_pos isSpace, ih]
        rfl

theorem any_spacedItems?_iff {test : List Node → Bool} :
    (spacedItems? nodes).any test = true ↔
      ∃ values, Spaced values nodes ∧ test values = true := by
  simp only [Option.any_eq_true, spacedItems?_eq_some_iff]

theorem isListOf_space_iff {item : Node → Bool} :
    isListOf item .space nodes = true ↔
      ∃ values, Spaced values nodes ∧ ∀ value ∈ values, item value = true := by
  constructor
  · intro passed
    fun_induction isListOf item .space nodes with
    | case1 => contradiction
    | case2 node => exact ⟨[node], .one node, by simpa using passed⟩
    | case3 node gap rest ih =>
        simp only [Bool.and_eq_true] at passed
        obtain ⟨⟨isItem, isSpace⟩, further⟩ := passed
        obtain ⟨values, spaced, areItems⟩ := ih further
        exact ⟨node :: values, .more node isSpace spaced,
          List.forall_mem_cons.mpr ⟨isItem, areItems⟩⟩
  · intro described
    obtain ⟨values, spaced, areItems⟩ := described
    induction spaced with
    | one value => exact areItems value (List.mem_singleton_self value)
    | more value isSpace further ih =>
        obtain ⟨isItem, areItems⟩ := List.forall_mem_cons.mp areItems
        simp only [isListOf, Bool.and_eq_true]
        exact ⟨⟨isItem, isSpace⟩, ih areItems⟩

/-- A tuple with one test for all its values is a list of known length. -/
theorem isTupleOf_replicate (item : Node → Bool) (separator : Separator)
    (count : Nat) (nodes : List Node) :
    isTupleOf separator (List.replicate count item) nodes =
      (isListOf item separator nodes && nodes.length + 1 == 2 * count) := by
  fun_induction isListOf item separator nodes generalizing count with
  | case1 =>
      cases count with
      | zero => rfl
      | succ count => simp [List.replicate_succ, isTupleOf]
  | case2 node =>
      obtain _ | _ | count := count
      · simp [isTupleOf]
      · simp [isTupleOf]
      · have tooMany : ¬ 2 = 2 * (count + 1 + 1) := by omega
        simp [List.replicate_succ, isTupleOf, tooMany]
  | case3 node gap rest ih =>
      cases count with
      | zero => simp [isTupleOf]
      | succ count =>
          have sameLength : (rest.length + 1 + 1 + 1 == 2 * (count + 1)) =
              (rest.length + 1 == 2 * count) := by
            rw [Bool.eq_iff_iff, beq_iff_eq, beq_iff_eq]
            omega
          rw [List.replicate_succ, isTupleOf, ih, ← Bool.and_assoc,
            List.length_cons, List.length_cons, sameLength]

theorem isTupleOf_replicate_iff {item : Node → Bool} {count : Nat} :
    isTupleOf .space (List.replicate count item) nodes = true ↔
      ∃ values, Spaced values nodes ∧ values.length = count ∧
        ∀ value ∈ values, item value = true := by
  rw [isTupleOf_replicate, Bool.and_eq_true, isListOf_space_iff, beq_iff_eq]
  constructor
  · intro counted
    obtain ⟨⟨values, spaced, areItems⟩, length_eq⟩ := counted
    have := spaced.length_eq
    exact ⟨values, spaced, by omega, areItems⟩
  · intro described
    obtain ⟨values, spaced, rfl, areItems⟩ := described
    exact ⟨⟨values, spaced, areItems⟩, spaced.length_eq⟩

end StyleValue
