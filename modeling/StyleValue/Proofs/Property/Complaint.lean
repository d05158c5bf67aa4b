import StyleValue.Proofs.Grammar.Fault
import StyleValue.Proofs.Property.Choice

/-! What a declaration is told, and when: each complaint has one ground in the
value, and its words give the complaint away. -/

namespace StyleValue

/-- The complaints that there can be grounds for in a value, with their words. -/
inductive Complaint (property : String) (nodes : List Node) :
    Cause → String → Prop
  | missing (isEmpty : nodes = []) :
      Complaint property nodes .missing "Expected a value to be passed."
  | unsuitable :
      Complaint property nodes (.unsuitable (render nodes) property)
        ("\"" ++ render nodes ++ "\" is not a valid value for \"" ++ property ++
          "\".")
  | notSingle (several : 1 < nodes.length) :
      Complaint property nodes (.fault .notSingle)
        "Expected a single value to be passed."
  | tooMany {max : Nat} (isMax : max = 2 ∨ max = 4)
      (isOdd : nodes.length % 2 = 1) (isLong : 2 * max - 1 < nodes.length) :
      Complaint property nodes (.fault (.tooMany max))
        ("Expected a maximum of " ++ toString max ++ " values.")
  | missingHash {node : Node} {word : String} (member : node ∈ nodes)
      (isElement : node.argsOf? ["element"] = some [.word word])
      (noHash : word.toList.head? ≠ some '#') :
      Complaint property nodes (.fault (.missingHash word))
        ("Expected \"" ++ word ++ "\" to start with a \"#\".")
  | badIdentifier {node : Node} {word : String} {name : List Char}
      (member : node ∈ nodes)
      (isElement : node.argsOf? ["element"] = some [.word word])
      (hasHash : word.toList = '#' :: name)
      (notValid : Identifier.isValid (String.ofList name) = false) :
      Complaint property nodes (.fault (.badIdentifier word))
        ("Expected \"" ++ word ++ "\" to be a valid custom identifier.")

/-! The words. -/

namespace Cause

theorem head?_message_unsuitable (value property : String) :
    (unsuitable value property).message.toList.head? = some '"' := by
  unfold message
  simp

theorem head?_message_missing : missing.message.toList.head? = some 'E' := rfl

theorem head?_message_fault (mistake : Fault) :
    (fault mistake).message.toList.head? = some 'E' := by
  cases mistake with
  | notSingle => rfl
  | tooMany | missingHash | badIdentifier =>
      unfold message Fault.message
      simp

theorem message_fault_ne_missing (mistake : Fault) :
    (fault mistake).message ≠ missing.message := by
  intro same
  obtain ⟨start, isMessage⟩ := mistake.exists_message_eq
  have ends : missing.message.toList =
      "Expected a value to be passe".toList ++ ['d', '.'] := by
    unfold message
    simp
  have letters : mistake.message.toList = missing.message.toList :=
    congrArg String.toList same
  rw [isMessage, ends] at letters
  have marks := (List.cons.inj (List.append_inj_right' letters rfl)).1
  cases mistake with
  | notSingle => exact absurd same (by decide)
  | tooMany | missingHash | badIdentifier => simp [Fault.mark] at marks

theorem eq_missing_of_message {cause : Cause}
    (same : cause.message = missing.message) : cause = missing := by
  cases cause with
  | missing => rfl
  | unsuitable value property =>
      have heads := head?_message_unsuitable value property
      rw [same, head?_message_missing] at heads
      contradiction
  | fault mistake => exact absurd same (message_fault_ne_missing mistake)

end Cause

namespace Complaint

variable {property : String} {nodes : List Node} {cause other : Cause}
  {message : String}

theorem message_eq (complaint : Complaint property nodes cause message) :
    message = cause.message := by
  cases complaint with
  | missing | unsuitable | notSingle | tooMany | missingHash
  | badIdentifier => rfl

/-- A complaint is known by its words. -/
theorem eq_of_message (complaint : Complaint property nodes cause message)
    (another : Complaint property nodes other message) : other = cause := by
  have same : other.message = cause.message :=
    another.message_eq.symm.trans complaint.message_eq
  cases cause with
  | missing => exact Cause.eq_missing_of_message same
  | unsuitable value name =>
      cases other with
      | missing => exact (Cause.eq_missing_of_message same.symm).symm
      | unsuitable =>
          cases complaint
          cases another
          rfl
      | fault mistake =>
          have heads := Cause.head?_message_fault mistake
          rw [same, Cause.head?_message_unsuitable] at heads
          contradiction
  | fault mistake =>
      cases other with
      | missing => exact (Cause.eq_missing_of_message same.symm).symm
      | unsuitable value name =>
          have heads := Cause.head?_message_fault mistake
          rw [← same, Cause.head?_message_unsuitable] at heads
          contradiction
      | fault otherMistake => rw [Fault.message_injective same]

end Complaint

/-! Images. -/

theorem Node.idVerdict_eq_reject {node : Node} {fault : Fault}
    (rejected : node.idVerdict = .reject fault) :
    ∃ word, node = .word word ∧
      ((fault = .missingHash word ∧ word.toList.head? ≠ some '#') ∨
        ∃ name, fault = .badIdentifier word ∧ word.toList = '#' :: name ∧
          Identifier.isValid (String.ofList name) = false) := by
  cases node with
  | word word =>
      refine ⟨word, rfl, ?_⟩
      rw [idVerdict] at rejected
      split at rejected
      next name hasHash =>
        split at rejected
        next => contradiction
        next notValid =>
          refine .inr ⟨name, (Verdict.reject.inj rejected).symm, hasHash, ?_⟩
          exact Bool.eq_false_iff.mpr notValid
      next noHash =>
        refine .inl ⟨(Verdict.reject.inj rejected).symm, ?_⟩
        intro isHash
        obtain ⟨name, hasHash⟩ := List.head?_eq_some_iff.mp isHash
        exact noHash name hasHash
  | space | quoted | divider | call => contradiction

theorem Node.imageVerdict_eq_reject {node : Node} {fault : Fault}
    (rejected : node.imageVerdict = .reject fault) :
    ∃ only, node.argsOf? ["element"] = some [only] ∧
      only.idVerdict = .reject fault := by
  cases node with
  | call name before args after closed =>
      simp only [imageVerdict, Image.callVerdict] at rejected
      split at rejected
      next isElement =>
        have isArgs : argsOf? ["element"]
            (.call name before args after closed) = some args := by
          simp [argsOf?, isElement]
        rcases args with _ | ⟨only, _ | ⟨next, rest⟩⟩
        · contradiction
        · exact ⟨only, isArgs, rejected⟩
        · contradiction
      next => exact absurd rejected (Verdict.ofBool_ne_reject _ _)
  | word | space | quoted | divider => contradiction

theorem Complaint.of_image {property : String} {nodes : List Node} {node : Node}
    (member : node ∈ nodes) {fault : Fault}
    (rejected : node.imageVerdict = .reject fault) :
    Complaint property nodes (.fault fault) fault.message := by
  obtain ⟨only, isElement, idRejected⟩ := node.imageVerdict_eq_reject rejected
  obtain ⟨word, rfl, ⟨rfl, noHash⟩ | ⟨name, rfl, hasHash, notValid⟩⟩ :=
    only.idVerdict_eq_reject idRejected
  · exact .missingHash member isElement noHash
  · exact .badIdentifier member isElement hasHash notValid

/-! The catalogue. -/

namespace Property

set_option maxRecDepth 2000 in
theorem checks_choices :
    (choices.filterMap Grammar.itemRule?).flatMap ItemRule.checks =
      [Node.imageVerdict, Node.imageVerdict] := by
  rfl

set_option maxRecDepth 2000 in
theorem all_bounded :
    ((choices.filterMap Grammar.repetition?).all fun repetition =>
      repetition.max.all fun max =>
        repetition.isStrict && (max == 2 || max == 4)) = true := by
  rfl

section

variable {choice : Grammar} {nodes : List Node} {fault : Fault}

/-- Of items, only an image is ever found fault with. -/
theorem complaint_of_itemRule? (member : choice ∈ choices) {rule : ItemRule}
    (isRule : choice.itemRule? = some rule) {node : Node} (isItem : node ∈ nodes)
    (rejected : rule.verdict node = .reject fault) (property : String) :
    Complaint property nodes (.fault fault) fault.message := by
  obtain ⟨judge, isCheck, found⟩ := rule.exists_check_of_reject rejected
  have inCatalogue : judge ∈
      (choices.filterMap Grammar.itemRule?).flatMap ItemRule.checks :=
    List.mem_flatMap.mpr
      ⟨rule, List.mem_filterMap.mpr ⟨choice, member, isRule⟩, isCheck⟩
  rw [checks_choices] at inCatalogue
  have isImage : judge = Node.imageVerdict := by simpa using inCatalogue
  rw [isImage] at found
  exact .of_image isItem found

theorem complaint_of_gives (member : choice ∈ choices) (nonempty : nodes ≠ [])
    (gives : choice.Gives nodes (.reject fault)) (property : String) :
    Complaint property nodes (.fault fault) fault.message := by
  cases gives with
  | item isOne rejected =>
      refine complaint_of_itemRule? member rfl ?_ rejected property
      rw [isOne]
      exact List.mem_singleton_self _
  | several notOne isFault =>
      rw [Verdict.reject.inj isFault]
      have := List.length_pos_iff.mpr nonempty
      exact .notSingle (by omega)
  | @list repetition rejected =>
      obtain ⟨max, isMax, rfl, isLong, isOdd⟩ | ⟨node, isItem, itemRejected⟩ :=
        Repetition.check_eq_reject rejected
      · have inRepetitions : repetition ∈ choices.filterMap Grammar.repetition? :=
          List.mem_filterMap.mpr ⟨.list repetition, member, rfl⟩
        have bounded := List.all_eq_true.mp all_bounded repetition inRepetitions
        simp only [Option.mem_def.mp isMax, Option.all_some,
          Bool.and_eq_true, Bool.or_eq_true, beq_iff_eq] at bounded
        exact .tooMany bounded.2 (isOdd bounded.1) isLong
      · exact complaint_of_itemRule? member rfl isItem itemRejected property
  | @custom judge said =>
      obtain ⟨accepts, -, rfl⟩ := exists_test_of_custom member
      exact absurd said (Verdict.ofBool_ne_reject _ _)

end

theorem grammar?_eq_none_iff {property : String} :
    grammar? property = none ↔ property ∉ names := by
  simp [grammar?, names]

end Property

/-! Declarations. -/

/-- How a declaration comes to what is known of it. -/
inductive Outcome (property : String) (nodes : List Node) : Validity → Prop
  | universal (isUniversal : isUniversal nodes = true) :
      Outcome property nodes .valid
  | unknown (notUniversal : ¬ isUniversal nodes = true)
      (notFound : Property.grammar? property = none) :
      Outcome property nodes (.unknown property)
  | missing {grammar : Grammar}
      (found : Property.grammar? property = some grammar)
      (isEmpty : nodes = []) : Outcome property nodes (.invalid .missing)
  | accepted {grammar : Grammar}
      (found : Property.grammar? property = some grammar)
      (nonempty : nodes ≠ []) (said : grammar.check nodes = .accept) :
      Outcome property nodes .valid
  | mismatched {grammar : Grammar}
      (found : Property.grammar? property = some grammar)
      (nonempty : nodes ≠ []) (said : grammar.check nodes = .mismatch) :
      Outcome property nodes (.invalid (.unsuitable (render nodes) property))
  | rejected {grammar : Grammar} {fault : Fault}
      (found : Property.grammar? property = some grammar)
      (nonempty : nodes ≠ []) (said : grammar.check nodes = .reject fault) :
      Outcome property nodes (.invalid (.fault fault))

theorem outcome_validateNodes (property : String) (nodes : List Node) :
    Outcome property nodes (validateNodes property nodes) := by
  unfold validateNodes
  split
  next universal => exact .universal universal
  next notUniversal =>
    split
    next notFound => exact .unknown notUniversal notFound
    next grammar found =>
      split
      next isEmpty => exact .missing found (List.isEmpty_iff.mp isEmpty)
      next someNode =>
        have nonempty : nodes ≠ [] := by simpa using someNode
        split
        next said => exact .accepted found nonempty said
        next said => exact .mismatched found nonempty said
        next fault said => exact .rejected found nonempty said

theorem isUniversal_eq_true_iff {nodes : List Node} :
    isUniversal nodes = true ↔
      ∃ node, nodes = [node] ∧
        (node.isGlobalKeyword = true ∨ node.isVariable = true) := by
  constructor
  · intro universal
    obtain ⟨node, rfl⟩ :=
      List.length_eq_one_iff.mp (length_of_isUniversal universal)
    exact ⟨node, rfl, Bool.or_eq_true_iff.mp universal⟩
  · rintro ⟨node, rfl, universal⟩
    exact Bool.or_eq_true_iff.mpr universal

section

variable {property : String} {nodes : List Node}

theorem validateNodes_eq_unknown_iff {name : String} :
    validateNodes property nodes = .unknown name ↔
      name = property ∧ property ∉ Property.names ∧
        ¬ isUniversal nodes = true := by
  rw [← Property.grammar?_eq_none_iff]
  constructor
  · intro isUnknown
    have outcome := outcome_validateNodes property nodes
    rw [isUnknown] at outcome
    cases outcome with
    | unknown notUniversal notFound => exact ⟨rfl, notFound, notUniversal⟩
  · rintro ⟨rfl, notFound, notUniversal⟩
    rw [validateNodes, if_neg notUniversal, notFound]

theorem complaint_of_validateNodes {cause : Cause}
    (isInvalid : validateNodes property nodes = .invalid cause) :
    Complaint property nodes cause cause.message := by
  have outcome := outcome_validateNodes property nodes
  rw [isInvalid] at outcome
  cases outcome with
  | missing found isEmpty => exact .missing isEmpty
  | mismatched => exact .unsuitable
  | @rejected grammar fault found nonempty said =>
      have speaks : Verdict.reject fault ≠ .mismatch := nofun
      obtain ⟨choice, member, gives⟩ :=
        Property.exists_gives_of_grammar? found speaks said
      exact Property.complaint_of_gives member nonempty gives property

theorem message_eq_missing_iff {cause : Cause}
    (isInvalid : validateNodes property nodes = .invalid cause) :
    cause.message = Cause.missing.message ↔ nodes = [] := by
  have outcome := outcome_validateNodes property nodes
  rw [isInvalid] at outcome
  constructor
  · intro same
    obtain rfl := Cause.eq_missing_of_message same
    cases outcome with
    | missing found isEmpty => exact isEmpty
  · intro isEmpty
    cases outcome with
    | missing => rfl
    | mismatched found nonempty | rejected found nonempty => contradiction

end

/-- A declaration is unknown if its property is and the value is not one that
every property takes. Whatever an invalid declaration is told, there is a ground
for it, and the words leave no doubt about which. -/
theorem validateNodes_complaint (property : String) (nodes : List Node) :
    (∀ name, validateNodes property nodes = .unknown name ↔
      name = property ∧ property ∉ Property.names ∧
        ¬ ∃ node, nodes = [node] ∧
          (node.isGlobalKeyword = true ∨ node.isVariable = true)) ∧
      ∀ cause, validateNodes property nodes = .invalid cause →
        Complaint property nodes cause cause.message ∧
          (∀ other, Complaint property nodes other cause.message →
            other = cause) ∧
          (cause.message = "Expected a value to be passed." ↔ nodes = []) := by
  constructor
  · intro name
    rw [validateNodes_eq_unknown_iff, isUniversal_eq_true_iff]
  · intro cause isInvalid
    have complaint := complaint_of_validateNodes isInvalid
    exact ⟨complaint, fun other another => complaint.eq_of_message another,
      message_eq_missing_iff isInvalid⟩

theorem validateNodes_complaint_element :
    validateNodes "background-image"
        [.word "none", .divider .comma "" " ",
          .call "element" "" [.word "top"] "" true] =
        .invalid (.fault (.missingHash "top")) ∧
      Complaint "background-image"
        [.word "none", .divider .comma "" " ",
          .call "element" "" [.word "top"] "" true]
        (.fault (.missingHash "top"))
        "Expected \"top\" to start with a \"#\"." ∧
      validateNodes "colour" [.word "red"] = .unknown "colour" ∧
      "colour" ∉ Property.names := by
  have isInvalid : validateNodes "background-image"
      [.word "none", .divider .comma "" " ",
        .call "element" "" [.word "top"] "" true] =
      .invalid (.fault (.missingHash "top")) := by
    decide +kernel
  have isUnknown : validateNodes "colour" [.word "red"] =
      .unknown "colour" := by
    decide +kernel
  have complaint := ((validateNodes_complaint _ _).2 _ isInvalid).1
  have unlisted := ((validateNodes_complaint _ _).1 _).mp isUnknown
  exact ⟨isInvalid, complaint, isUnknown, unlisted.2.1⟩

end StyleValue
