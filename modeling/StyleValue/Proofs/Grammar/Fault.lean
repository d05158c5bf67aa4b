import StyleValue.Proofs.Grammar.Choice

/-! Where a fault comes from. The rules for an item pass on the faults that their
checks find; only a repetition and a single item have a fault of their own. -/

namespace StyleValue

theorem Verdict.ofBool_ne_reject (matched : Bool) (fault : Fault) :
    ofBool matched ≠ .reject fault := by
  cases matched with
  | true => exact nofun
  | false => exact nofun

namespace ItemRule

mutual

/-- The checks that a rule makes, those of its alternatives included. -/
def checks : ItemRule → List (Node → Verdict)
  | .keyword _ => []
  | .test _ => []
  | .check verdict => [verdict]
  | .anyOf rules => checksOf rules

def checksOf : List ItemRule → List (Node → Verdict)
  | [] => []
  | rule :: rest => rule.checks ++ checksOf rest

end

variable {node : Node} {fault : Fault}

mutual

theorem exists_check_of_reject :
    (rule : ItemRule) → rule.verdict node = .reject fault →
      ∃ judge ∈ rule.checks, judge node = .reject fault
  | .keyword _, rejected => absurd rejected (Verdict.ofBool_ne_reject _ _)
  | .test _, rejected => absurd rejected (Verdict.ofBool_ne_reject _ _)
  | .check judge, rejected => ⟨judge, List.mem_singleton_self judge, rejected⟩
  | .anyOf rules, rejected => exists_check_of_firstVerdict rules rejected

theorem exists_check_of_firstVerdict :
    (rules : List ItemRule) → firstVerdict node rules = .reject fault →
      ∃ judge ∈ checksOf rules, judge node = .reject fault
  | [], rejected => nomatch rejected
  | rule :: rest, rejected => by
      rw [firstVerdict] at rejected
      split at rejected
      next =>
        obtain ⟨judge, member, found⟩ := exists_check_of_firstVerdict rest rejected
        exact ⟨judge, List.mem_append_right _ member, found⟩
      next =>
        obtain ⟨judge, member, found⟩ := exists_check_of_reject rule rejected
        exact ⟨judge, List.mem_append_left _ member, found⟩

end

end ItemRule

namespace Repetition

variable {repetition : Repetition} {nodes : List Node} {fault : Fault}

theorem itemVerdict_eq_reject {node : Node}
    (rejected : repetition.itemVerdict node = .reject fault) :
    repetition.item.verdict node = .reject fault := by
  rw [itemVerdict] at rejected
  split at rejected
  next => contradiction
  next => exact rejected

theorem exists_item_of_walk (rejected : repetition.walk nodes = .reject fault) :
    ∃ node ∈ nodes, repetition.item.verdict node = .reject fault := by
  fun_induction repetition.walk nodes with
  | case1 => contradiction
  | case2 node =>
      exact ⟨node, List.mem_cons_self, itemVerdict_eq_reject rejected⟩
  | case3 node gap rest _ _ ih =>
      obtain ⟨later, member, found⟩ := ih rejected
      exact ⟨later, List.mem_cons_of_mem _ (List.mem_cons_of_mem _ member), found⟩
  | case4 => contradiction
  | case5 node gap rest _ =>
      exact ⟨node, List.mem_cons_self, itemVerdict_eq_reject rejected⟩

/-- A repetition finds that it is too long, or finds fault with an item. -/
theorem check_eq_reject (rejected : repetition.check nodes = .reject fault) :
    (∃ max ∈ repetition.max, fault = .tooMany max ∧
      2 * max - 1 < nodes.length ∧
      (repetition.isStrict = true → nodes.length % 2 = 1)) ∨
      ∃ node ∈ nodes, repetition.item.verdict node = .reject fault := by
  rw [check] at rejected
  split at rejected
  next => contradiction
  next notEven =>
    split at rejected
    next max isMax =>
      obtain ⟨found, tooLong⟩ := Option.filter_eq_some_iff.mp isMax
      have isFault := (Verdict.reject.inj rejected).symm
      refine .inl ⟨max, found, isFault, of_decide_eq_true tooLong, ?_⟩
      simpa [Nat.mod_two_ne_zero] using notEven
    next => exact .inr (exists_item_of_walk rejected)

end Repetition

/-! The words for a fault. -/

namespace Fault

/-- The last letter of the words for a fault, which tells its kind. -/
def mark : Fault → Char
  | .notSingle => 'd'
  | .tooMany _ => 's'
  | .missingHash _ => '"'
  | .badIdentifier _ => 'r'

theorem exists_message_eq (fault : Fault) :
    ∃ start, fault.message.toList = start ++ [fault.mark, '.'] := by
  cases fault with
  | notSingle =>
      refine ⟨"Expected a single value to be passe".toList, ?_⟩
      unfold message mark
      simp
  | tooMany max =>
      refine ⟨("Expected a maximum of " ++ toString max ++ " value").toList, ?_⟩
      unfold message mark
      simp
  | missingHash word =>
      refine ⟨("Expected \"" ++ word ++ "\" to start with a \"#").toList, ?_⟩
      unfold message mark
      simp
  | badIdentifier word =>
      refine ⟨("Expected \"" ++ word ++
        "\" to be a valid custom identifie").toList, ?_⟩
      unfold message mark
      simp

theorem mark_eq_of_message {fault other : Fault}
    (same : fault.message = other.message) : fault.mark = other.mark := by
  obtain ⟨start, isMessage⟩ := fault.exists_message_eq
  obtain ⟨otherStart, isOther⟩ := other.exists_message_eq
  rw [same, isOther] at isMessage
  have ends := List.append_inj_right' isMessage rfl
  exact (List.cons.inj ends).1.symm

/-- A fault is known by the words for it. -/
theorem message_injective {fault other : Fault}
    (same : fault.message = other.message) : fault = other := by
  have marks := mark_eq_of_message same
  cases fault with
  | notSingle =>
      cases other with
      | notSingle => rfl
      | tooMany | missingHash | badIdentifier => simp [mark] at marks
  | tooMany max =>
      cases other with
      | tooMany otherMax =>
          unfold message at same
          rw [String.append_left_inj, String.append_right_inj,
            Nat.toString_eq_ofList_toDigits, Nat.toString_eq_ofList_toDigits,
            String.ofList_inj] at same
          have number := congrArg (Nat.ofDigitChars 10 · 0) same
          rw [Nat.ofDigitChars_ten_toDigits, Nat.ofDigitChars_ten_toDigits]
            at number
          rw [number]
      | notSingle | missingHash | badIdentifier => simp [mark] at marks
  | missingHash word =>
      cases other with
      | missingHash otherWord =>
          unfold message at same
          rw [String.append_left_inj, String.append_right_inj] at same
          rw [same]
      | notSingle | tooMany | badIdentifier => simp [mark] at marks
  | badIdentifier word =>
      cases other with
      | badIdentifier otherWord =>
          unfold message at same
          rw [String.append_left_inj, String.append_right_inj] at same
          rw [same]
      | notSingle | tooMany | missingHash => simp [mark] at marks

end Fault

end StyleValue
