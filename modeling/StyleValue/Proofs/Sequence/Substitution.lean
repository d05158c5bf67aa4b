import Mathlib.Data.List.Forall2
import StyleValue.Name.Call
import StyleValue.Sequence.Separated

/-! Variables put in the place of items. Separators are never replaced, so a
sequence keeps its length, its separators and its groups. -/

namespace StyleValue

namespace Node

/-- `later` is the same node, or a variable in the place of an item. -/
inductive MayBecome : Node → Node → Prop
  | same (node : Node) : MayBecome node node
  | replaced {node later : Node} (notSpace : node.isSpace = false)
      (notDivider : node.isDivider = false)
      (isVariable : later.isVariable = true) : MayBecome node later

theorem isVariable_iff {node : Node} :
    node.isVariable = true ↔
      ∃ name before args after closed,
        node = .call name before args after closed ∧
          sameName name "var" = true := by
  cases node with
  | word | space | quoted | divider =>
      simp [isVariable, isCallTo, argsOf?]
  | call name before args after closed =>
      simp [isVariable, isCallTo, argsOf?]

theorem any_argsOf?_iff {node : Node} {names : List String}
    {test : List Node → Bool} :
    (node.argsOf? names).any test = true ↔
      ∃ name before args after closed,
        node = .call name before args after closed ∧
          (∃ known ∈ names, sameName name known = true) ∧
          test args = true := by
  cases node with
  | word | space | quoted | divider => simp [argsOf?]
  | call name before args after closed =>
      rw [argsOf?, Option.any_eq_true]
      simp only [Option.ite_none_right_eq_some, List.any_eq_true]
      constructor
      · rintro ⟨found, ⟨known, ⟨⟩⟩, passed⟩
        exact ⟨name, before, args, after, closed, rfl, known, passed⟩
      · rintro ⟨_, _, _, _, _, ⟨⟩, known, passed⟩
        exact ⟨args, ⟨known, rfl⟩, passed⟩

theorem isCallTo_of_any {node : Node} {names : List String}
    {test : List Node → Bool} (passed : (node.argsOf? names).any test = true) :
    node.isCallTo names = true := by
  obtain ⟨args, isArgs, -⟩ := (Option.any_eq_true _ _).mp passed
  rw [isCallTo, isArgs]
  rfl

theorem argsOf?_append {node : Node} (names others : List String) :
    node.argsOf? (names ++ others) =
      (node.argsOf? names).or (node.argsOf? others) := by
  cases node with
  | word | space | quoted | divider => rfl
  | call name before args after closed =>
      simp only [argsOf?, List.any_append]
      cases names.any (sameName name) with
      | true => rfl
      | false => rfl

theorem isWordThat_of_isCallTo {node : Node} {names : List String}
    (isCall : node.isCallTo names = true) (test : String → Bool) :
    node.isWordThat test = false := by
  cases node with
  | word => contradiction
  | space | quoted | divider | call => rfl

/-- A call has one name, in any letter case. -/
theorem argsOf?_of_isCallTo {node : Node} {names others : List String}
    (isCall : node.isCallTo names = true)
    (apart : ∀ name ∈ names, ∀ other ∈ others, sameName name other = false) :
    node.argsOf? others = none := by
  cases node with
  | word | space | quoted | divider => rfl
  | call found before args after closed =>
      rw [isCallTo, argsOf?, Option.isSome_ite, List.any_eq_true] at isCall
      obtain ⟨name, member, named⟩ := isCall
      have sameCase : lowerCase found = lowerCase name := beq_iff_eq.mp named
      rw [argsOf?, if_neg]
      rw [Bool.not_eq_true, List.any_eq_false]
      intro other isOther
      rw [sameName, sameCase]
      exact Bool.eq_false_iff.mp (apart name member other isOther)

theorem isWordThat_of_isVariable {node : Node}
    (isVariable : node.isVariable = true) (test : String → Bool) :
    node.isWordThat test = false :=
  isWordThat_of_isCallTo isVariable test

theorem argsOf?_of_isVariable {node : Node}
    (isVariable : node.isVariable = true) {names : List String}
    (others : ∀ name ∈ names, sameName "var" name = false) :
    node.argsOf? names = none :=
  argsOf?_of_isCallTo isVariable (List.forall_mem_singleton.mpr others)

theorem isDividerOf_eq_false {node : Node} (notDivider : node.isDivider = false)
    (kind : Divider) : node.isDividerOf kind = false := by
  cases node with
  | divider => contradiction
  | word | space | quoted | call => rfl

namespace MayBecome

variable {node later : Node}

theorem isSpace_eq (becomes : node.MayBecome later) :
    later.isSpace = node.isSpace := by
  cases becomes with
  | same => rfl
  | replaced notSpace _ isVariable =>
      obtain ⟨_, _, _, _, _, rfl, -⟩ := isVariable_iff.mp isVariable
      rw [notSpace]
      rfl

theorem isDivider_eq (becomes : node.MayBecome later) :
    later.isDivider = node.isDivider := by
  cases becomes with
  | same => rfl
  | replaced _ notDivider isVariable =>
      obtain ⟨_, _, _, _, _, rfl, -⟩ := isVariable_iff.mp isVariable
      rw [notDivider]
      rfl

theorem isDividerOf_eq (becomes : node.MayBecome later) (kind : Divider) :
    later.isDividerOf kind = node.isDividerOf kind := by
  cases becomes with
  | same => rfl
  | replaced _ notDivider isVariable =>
      obtain ⟨_, _, _, _, _, rfl, -⟩ := isVariable_iff.mp isVariable
      rw [isDividerOf_eq_false notDivider]
      rfl

theorem accepts_eq (becomes : node.MayBecome later) (separator : Separator) :
    separator.accepts later = separator.accepts node := by
  cases separator with
  | comma => exact becomes.isDividerOf_eq .comma
  | space => exact becomes.isSpace_eq

theorem passes {test : Node → Bool}
    (admits : ∀ ⦃node : Node⦄, node.isVariable = true → test node = true)
    (becomes : node.MayBecome later) (passed : test node = true) :
    test later = true := by
  cases becomes with
  | same => exact passed
  | replaced _ _ isVariable => exact admits isVariable

end MayBecome

end Node

instance : Std.Refl Node.MayBecome := ⟨.same⟩

/-- `later` is the same sequence, with variables in the place of some items. -/
abbrev IsSubstituted (nodes later : List Node) : Prop :=
  List.Forall₂ Node.MayBecome nodes later

theorem isSubstituted_append {node later : Node}
    (becomes : node.MayBecome later) (before after : List Node) :
    IsSubstituted (before ++ node :: after) (before ++ later :: after) :=
  List.rel_append (List.forall₂_refl before)
    (.cons becomes (List.forall₂_refl after))

/-! Sequences that a test does not tell apart, element by element. -/

section Related

variable {α : Type} {relation : α → α → Prop} {test : α → Bool}
  (respects : ∀ ⦃first second : α⦄, relation first second →
    test second = test first)
  {elements later : List α} (related : List.Forall₂ relation elements later)

include respects related

theorem map_eq_of_forall₂ : later.map test = elements.map test := by
  induction related with
  | nil => rfl
  | cons first _ ih => rw [List.map_cons, List.map_cons, respects first, ih]

theorem all_eq_of_forall₂ : later.all test = elements.all test := by
  have same := congrArg (List.all · id) (map_eq_of_forall₂ respects related)
  simpa using same

theorem any_eq_of_forall₂ : later.any test = elements.any test := by
  have same := congrArg (List.any · id) (map_eq_of_forall₂ respects related)
  simpa using same

theorem any_getLast?_eq_of_forall₂ :
    later.getLast?.any test = elements.getLast?.any test := by
  have same := congrArg (fun marks => marks.getLast?.any id)
    (map_eq_of_forall₂ respects related)
  simpa [Option.any_map] using same

theorem all_getLast?_eq_of_forall₂ :
    later.getLast?.all test = elements.getLast?.all test := by
  have same := congrArg (fun marks => marks.getLast?.all id)
    (map_eq_of_forall₂ respects related)
  simpa [Option.all_map] using same

end Related

/-! Groups. -/

section Groups

variable {α : Type} {relation : α → α → Prop}

theorem isEmpty_eq_of_forall₂ {elements later : List α}
    (related : List.Forall₂ relation elements later) :
    later.isEmpty = elements.isEmpty := by
  cases related <;> rfl

theorem forall₂_modifyHead {first second : α}
    (related : relation first second) {groups later : List (List α)}
    (allRelated : List.Forall₂ (List.Forall₂ relation) groups later) :
    List.Forall₂ (List.Forall₂ relation) (groups.modifyHead (first :: ·))
      (later.modifyHead (second :: ·)) := by
  cases allRelated with
  | nil => exact .nil
  | cons group rest => exact .cons (.cons related group) rest

theorem forall₂_groupsBy {isBreak : α → Bool}
    (respects : ∀ ⦃first second : α⦄, relation first second →
      isBreak second = isBreak first)
    {elements later : List α}
    (allRelated : List.Forall₂ relation elements later) :
    List.Forall₂ (List.Forall₂ relation) (groupsBy isBreak elements)
      (groupsBy isBreak later) := by
  induction allRelated with
  | nil => exact .cons .nil .nil
  | cons related _ ih =>
      rw [groupsBy, groupsBy, respects related]
      split
      · exact .cons .nil ih
      · exact forall₂_modifyHead related ih

theorem all_of_forall₂ {test : α → Bool}
    (keeps : ∀ ⦃first second : α⦄, relation first second →
      test first = true → test second = true)
    {elements later : List α}
    (allRelated : List.Forall₂ relation elements later)
    (passed : elements.all test = true) : later.all test = true := by
  induction allRelated with
  | nil => rfl
  | cons related _ ih =>
      rw [List.all_cons, Bool.and_eq_true_iff] at passed ⊢
      exact ⟨keeps related passed.1, ih passed.2⟩

end Groups

/-- A test of whole sequences that survives the replacement of items. -/
def AdmitsVariables (accepts : List Node → Bool) : Prop :=
  ∀ ⦃nodes later : List Node⦄, IsSubstituted nodes later →
    accepts nodes = true → accepts later = true

theorem AdmitsVariables.all_commaGroups {accepts : List Node → Bool}
    (admits : AdmitsVariables accepts) :
    AdmitsVariables fun nodes => (commaGroups nodes).all accepts := by
  intro nodes later substituted passed
  have groups : List.Forall₂ IsSubstituted (commaGroups nodes)
      (commaGroups later) :=
    forall₂_groupsBy (fun _ _ becomes => becomes.isDividerOf_eq .comma)
      substituted
  exact all_of_forall₂ admits groups passed

end StyleValue
