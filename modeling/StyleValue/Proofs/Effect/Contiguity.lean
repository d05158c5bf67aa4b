import StyleValue.Proofs.Effect.Counts
import StyleValue.Tree.Parse

/-! The lengths of a shadow that opens with a length. No color stands before one
of them, and where `inset` does not either, they are the first items of the
shadow, one after the other. Only colors are looked at: `inset` may stand between
two lengths. -/

namespace StyleValue

/-- An item before a length is a length. -/
def LengthsLead (nodes : List Node) : Prop :=
  nodes.Pairwise fun earlier later =>
    later.isLength = true → earlier.isSpace = true ∨ earlier.isLength = true

theorem LengthsLead.isLength_eq_false {node : Node} {nodes : List Node}
    (leads : LengthsLead (node :: nodes)) (notSpace : node.isSpace = false)
    (notLength : node.isLength = false) :
    ∀ other ∈ node :: nodes, other.isLength = false := by
  refine List.forall_mem_cons.mpr ⟨notLength, fun later member => ?_⟩
  rw [Bool.eq_false_iff]
  intro isLength
  rcases (List.pairwise_cons.mp leads).1 later member isLength with
    isSpace | isLength
  · exact Bool.false_ne_true (notSpace.symm.trans isSpace)
  · exact Bool.false_ne_true (notLength.symm.trans isLength)

/-- The lengths fill the first slots. -/
theorem isLength_iff_lt_countP {isItem : Node → Prop}
    (notSpace : ∀ node, isItem node → node.isSpace = false) :
    {nodes : List Node} → TakeTurns isItem (·.isSpace = true) nodes →
      LengthsLead nodes → (slot : Nat) → {node : Node} →
      nodes[2 * slot]? = some node →
      (node.isLength = true ↔ slot < nodes.countP Node.isLength)
  | [], _, _, _, _, found => by
      rw [List.getElem?_nil] at found
      contradiction
  | [first], _, _, 0, node, found => by
      cases Option.some.inj found
      rw [List.countP_singleton]
      cases first.isLength <;> simp
  | [_], _, _, slot + 1, _, found => by
      rw [Nat.mul_succ, List.getElem?_cons_succ, List.getElem?_nil] at found
      contradiction
  | first :: gap :: rest, turns, leads, slot, node, found => by
      obtain ⟨isFirst, turns⟩ := takeTurns_cons.mp turns
      obtain ⟨isGap, turns⟩ := takeTurns_cons.mp turns
      have gapLength := (Node.kinds_of_isSpace isGap).1
      have restLeads := (List.pairwise_cons.mp (List.pairwise_cons.mp leads).2).2
      have ih := isLength_iff_lt_countP notSpace turns restLeads
      cases isLength : first.isLength with
      | true =>
          rw [List.countP_cons_of_pos isLength,
            List.countP_cons_of_neg (by simp [gapLength])]
          cases slot with
          | zero =>
              cases Option.some.inj found
              simp [isLength]
          | succ slot =>
              rw [ih slot found]
              omega
      | false =>
          -- No length follows an item that is none.
          have noLengths := leads.isLength_eq_false (notSpace first isFirst)
            isLength
          have noCount : (first :: gap :: rest).countP Node.isLength = 0 := by
            rw [List.countP_eq_zero]
            exact fun other member => Bool.eq_false_iff.mp (noLengths other member)
          rw [noLengths node (List.mem_of_getElem? found), noCount]
          simp

namespace IsCountedShadow

variable {maxLengths maxNodes : Nat} {allowsInset : Bool} {group : List Node}
  (counted : IsCountedShadow maxLengths allowsInset maxNodes group)

include counted

theorem takeTurns : TakeTurns (Node.IsShadowItem allowsInset)
    (·.isSpace = true) group :=
  fun index node found =>
    ⟨counted.items index node found, counted.gaps index node found⟩

theorem isSpace_or_isShadowItem {node : Node} (member : node ∈ group) :
    node.isSpace = true ∨ node.IsShadowItem allowsInset := by
  obtain ⟨index, found⟩ := List.mem_iff_getElem?.mp member
  rcases Nat.mod_two_eq_zero_or_one index with isEven | isOdd
  · exact .inr (counted.items index node found isEven)
  · exact .inl (counted.gaps index node found isOdd)

/-- Colors and variables apart, what stands before a length is a length or the
one thing that is not looked at. -/
theorem before_length (opens : group.head?.any Node.isLength = true)
    (noVariable : ∀ node ∈ group, node.isVariable = false) :
    group.Pairwise fun earlier later => later.isLength = true →
      earlier.isSpace = true ∨ earlier.isLength = true ∨
        allowsInset = true ∧ earlier.isKeyword ["inset"] = true := by
  refine (counted.ordered opens).imp_of_mem ?_
  intro earlier later member _ notAfterColor isLength
  rcases counted.isSpace_or_isShadowItem member with isSpace | isItem
  · exact .inl isSpace
  rcases isItem with isEarlier | isColor | isVariable | isInset
  · exact .inr (.inl isEarlier)
  · rw [notAfterColor isColor] at isLength
    contradiction
  · rw [noVariable earlier member] at isVariable
    contradiction
  · exact .inr (.inr isInset)

end IsCountedShadow

theorem Node.IsShadowItem.isSpace_eq_false {allowsInset : Bool} {node : Node}
    (isItem : node.IsShadowItem allowsInset) : node.isSpace = false := by
  rw [Bool.eq_false_iff]
  intro isSpace
  obtain ⟨notLength, notColor, notVariable, notInset⟩ := kinds_of_isSpace isSpace
  simp [IsShadowItem, notLength, notColor, notVariable, notInset] at isItem

/-- Nothing but gaps, lengths and `inset` stands before a length, in a shadow
without variables that opens with a length. Where no `inset` stands before a
length either, and in particular where none is allowed, the lengths are the
first items. -/
theorem lengths_of_isShadow {style : ShadowStyle} {group : List Node}
    (accepted : isShadow style group = true)
    (noVariable : ∀ node ∈ group, node.isVariable = false)
    (opens : group.head?.any Node.isLength = true) :
    (group.Pairwise fun earlier later => later.isLength = true →
      earlier.isSpace = true ∨ earlier.isLength = true ∨
        style.allowsInset = true ∧ earlier.isKeyword ["inset"] = true) ∧
    ((style.allowsInset = true → group.Pairwise fun earlier later =>
        earlier.isKeyword ["inset"] = true → later.isLength = false) →
      ∀ (slot : Nat) (node : Node), group[2 * slot]? = some node →
        (node.isLength = true ↔ slot < group.countP Node.isLength)) := by
  have counted := (isShadow_iff style group).mp accepted
  have before := counted.before_length opens noVariable
  refine ⟨before, fun insetsLast slot node found => ?_⟩
  have leads : LengthsLead group := by
    cases allowed : style.allowsInset with
    | false =>
        refine before.imp fun before isLength => ?_
        simpa [allowed] using before isLength
    | true =>
        refine (before.and (insetsLast allowed)).imp ?_
        rintro earlier later ⟨before, notAfterInset⟩ isLength
        rcases before isLength with isSpace | isEarlier | ⟨-, isInset⟩
        · exact .inl isSpace
        · exact .inr isEarlier
        · rw [notAfterInset isInset] at isLength
          contradiction
  exact isLength_iff_lt_countP (fun _ isItem => isItem.isSpace_eq_false)
    counted.takeTurns leads slot found

theorem lengths_of_isShadow_inset_last :
    isShadow .box [.word "0", .space " ", .call "calc" "" [.word "1px"] "" true,
        .space " ", .word "red", .space " ", .word "inset"] = true ∧
      ∀ (slot : Nat) (node : Node),
        [Node.word "0", .space " ", .call "calc" "" [.word "1px"] "" true,
          .space " ", .word "red", .space " ", .word "inset"][2 * slot]? =
            some node →
        (node.isLength = true ↔ slot < 2) := by
  have accepted : isShadow .box
      [.word "0", .space " ", .call "calc" "" [.word "1px"] "" true,
        .space " ", .word "red", .space " ", .word "inset"] = true := by
    decide +kernel
  obtain ⟨-, slots⟩ :=
    lengths_of_isShadow accepted (by decide +kernel) (by decide +kernel)
  have count : [Node.word "0", .space " ",
      .call "calc" "" [.word "1px"] "" true, .space " ", .word "red",
      .space " ", .word "inset"].countP Node.isLength = 2 := by
    decide +kernel
  rw [count] at slots
  exact ⟨accepted, slots fun _ => by decide +kernel⟩

/-- A color between two lengths is noticed, but `inset` is not. -/
theorem isShadow_inset_between_lengths :
    parse "1px inset 1px" = [.word "1px", .space " ", .word "inset",
        .space " ", .word "1px"] ∧
      isShadow .box [.word "1px", .space " ", .word "inset", .space " ",
        .word "1px"] = true ∧
      (Node.word "1px").isLength = true ∧
      (Node.word "inset").isKeyword ["inset"] = true ∧
      isShadow .box [.word "1px", .space " ", .word "red", .space " ",
        .word "1px"] = false := by
  have isLexed : Lexeme.lex 0 "1px inset 1px".toList =
      [.word "1px".toList, .blank [' '], .word "inset".toList, .blank [' '],
        .word "1px".toList] := by
    decide +kernel
  refine ⟨?_, by decide +kernel, by decide +kernel, by decide +kernel,
    by decide +kernel⟩
  rw [parse, isLexed]
  rfl

end StyleValue
