import StyleValue.Proofs.Quantity.Likeness
import StyleValue.Proofs.Tree.NormalForm

/-! The language of arithmetic expressions. The check goes into a bracketed part
with one text in hand, which it neither saves before nor restores after it. That
text is still enough to find the first and the last item of every part, at every
depth: it is empty exactly where a part begins, and an operator exactly where
the last item is one. -/

namespace StyleValue

namespace Calc

/-! Words. -/

/-- Anything but signs, joined by `*` and `/`. One sign may stand at the front. -/
structure IsGlued (text : String) : Prop where
  front : ∀ c ∈ text.toList.tail, isSign c = false
  last : ∀ c ∈ text.toList.getLast?, isOperatorChar c = false
  operator : ∃ c ∈ text.toList, isOperatorChar c = true

theorem isCompound_iff {text : String} : isCompound text = true ↔ IsGlued text := by
  simp only [isCompound, Bool.and_eq_true, Bool.not_eq_true', List.any_eq_false,
    Option.any_eq_false, List.any_eq_true, Bool.not_eq_true, and_assoc]
  constructor
  · rintro ⟨front, last, operator⟩
    exact ⟨front, last, operator⟩
  · rintro ⟨front, last, operator⟩
    exact ⟨front, last, operator⟩

theorem isWord_iff {text : String} :
    isWord text = true ↔
      isTerm text = true ∨ isOperator text = true ∨ IsGlued text := by
  rw [isWord, Bool.or_eq_true, Bool.or_eq_true, isCompound_iff, or_assoc]

/-! Expressions. -/

/-- The items other than spaces. -/
def solid (nodes : List Node) : List Node :=
  nodes.filter fun node => !node.isSpace

theorem solid_append (nodes more : List Node) :
    solid (nodes ++ more) = solid nodes ++ solid more :=
  List.filter_append ..

theorem solid_of_isSpace {node : Node} (isSpace : node.isSpace = true) :
    solid [node] = [] := by
  simp [solid, isSpace]

theorem solid_of_notSpace {node : Node} (notSpace : node.isSpace = false) :
    solid [node] = [node] := by
  simp [solid, notSpace]

theorem solid_eq_nil_iff {nodes : List Node} :
    solid nodes = [] ↔ ∀ node ∈ nodes, node.isSpace = true := by
  simp [solid, List.filter_eq_nil_iff]

/-- No operator is at an end; a slash between items is one. -/
structure IsBounded (nodes : List Node) : Prop where
  first : ∀ node ∈ (solid nodes).head?, isOperator node.text = false
  last : ∀ node ∈ (solid nodes).getLast?, isOperator node.text = false

/-- What may stand in an expression. -/
inductive IsPart : Node → Prop
  | space (text : String) : IsPart (.space text)
  | divider (kind : Divider) (before after : String) :
      IsPart (.divider kind before after)
  | word {text : String}
      (isWord : isTerm text = true ∨ isOperator text = true ∨ IsGlued text) :
      IsPart (.word text)
  | reference {name : String} (isVariable : sameName name "var" = true)
      (before : String) (args : List Node) (after : String) (closed : Bool) :
      IsPart (.call name before args after closed)
  | group {args : List Node} (nonempty : args ≠ [])
      (parts : ∀ arg ∈ args, IsPart arg) (bounded : IsBounded args)
      (before after : String) (closed : Bool) :
      IsPart (.call "" before args after closed)

structure IsExpression (nodes : List Node) : Prop where
  nonempty : nodes ≠ []
  parts : ∀ node ∈ nodes, IsPart node
  bounded : IsBounded nodes

/-! The text in hand. -/

variable {last middle next : String} {node : Node} {nodes more : List Node}

theorem isDangling_eq_false_iff {text : String} :
    isDangling last text = false ↔ (last = "" → isOperator text = false) := by
  rw [isDangling, Bool.and_eq_false_imp, String.isEmpty_iff]

/-- What the text in hand tells of the items that were passed. -/
structure Reaches (last : String) (nodes : List Node) (next : String) : Prop where
  first : last = "" → ∀ node ∈ (solid nodes).head?, isOperator node.text = false
  keeps : solid nodes = [] → next = last
  ends : ∀ node ∈ (solid nodes).getLast?, isOperator next = isOperator node.text

theorem reaches_of_solid_eq_nil (isEmpty : solid nodes = []) (last : String) :
    Reaches last nodes last := by
  constructor
  · intro _ found isFirst
    rw [isEmpty] at isFirst
    contradiction
  · exact fun _ => rfl
  · intro found isLast
    rw [isEmpty] at isLast
    contradiction

theorem reaches_item (notSpace : node.isSpace = false)
    (first : last = "" → isOperator node.text = false)
    (ends : isOperator next = isOperator node.text) :
    Reaches last [node] next := by
  constructor
  · intro atStart found isFirst
    rw [solid_of_notSpace notSpace] at isFirst
    cases isFirst
    exact first atStart
  · intro isEmpty
    rw [solid_of_notSpace notSpace] at isEmpty
    contradiction
  · intro found isLast
    rw [solid_of_notSpace notSpace] at isLast
    cases isLast
    exact ends

theorem Reaches.append (reaches : Reaches last nodes middle)
    (further : Reaches middle more next) : Reaches last (nodes ++ more) next := by
  constructor
  · intro atStart found isFirst
    rw [solid_append] at isFirst
    cases passed : solid nodes with
    | nil =>
        rw [passed, List.nil_append] at isFirst
        exact further.first (reaches.keeps passed ▸ atStart) found isFirst
    | cons item rest =>
        rw [passed, List.cons_append, List.head?_cons] at isFirst
        refine reaches.first atStart found ?_
        rw [passed, List.head?_cons]
        exact isFirst
  · intro isEmpty
    rw [solid_append, List.append_eq_nil_iff] at isEmpty
    rw [further.keeps isEmpty.2, reaches.keeps isEmpty.1]
  · intro found isLast
    rw [solid_append, List.getLast?_append] at isLast
    cases passed : (solid more).getLast? with
    | none =>
        rw [passed, Option.none_or] at isLast
        rw [further.keeps (List.getLast?_eq_none_iff.mp passed)]
        exact reaches.ends found isLast
    | some item =>
        rw [passed, Option.some_or] at isLast
        exact further.ends found (passed ▸ isLast)

/-- From the start, the text at the end decides whether both ends are right. -/
theorem Reaches.isBounded (reaches : Reaches "" nodes next)
    (atEnd : isOperator next = false) : IsBounded nodes :=
  ⟨reaches.first rfl, fun node isLast => reaches.ends node isLast ▸ atEnd⟩

theorem IsBounded.isOperator_eq (bounded : IsBounded nodes)
    (reaches : Reaches "" nodes next) : isOperator next = false := by
  cases passed : (solid nodes).getLast? with
  | none =>
      rw [reaches.keeps (List.getLast?_eq_none_iff.mp passed)]
      decide
  | some item =>
      rw [reaches.ends item passed]
      exact bounded.last item passed

/-! What is passed is an expression. -/

mutual

theorem isPart_of_advance? :
    (node : Node) → {last next : String} → advance? last node = some next →
      IsPart node ∧ Reaches last [node] next
  | .word text, last, next, advanced => by
      rw [advance?] at advanced
      split at advanced
      next passes =>
        rw [Bool.and_eq_true, Bool.not_eq_true'] at passes
        cases advanced
        exact ⟨.word (isWord_iff.mp passes.2), reaches_item rfl
          (isDangling_eq_false_iff.mp passes.1) rfl⟩
      next => contradiction
  | .space text, last, next, advanced => by
      rw [advance?] at advanced
      split at advanced
      · contradiction
      · cases advanced
        exact ⟨.space text, reaches_of_solid_eq_nil rfl last⟩
  | .quoted _ _ _, last, next, advanced => by
      rw [advance?] at advanced
      contradiction
  | .divider kind before after, last, next, advanced => by
      rw [advance?] at advanced
      split at advanced
      · contradiction
      next attached =>
        cases advanced
        exact ⟨.divider kind before after, reaches_item rfl
          (isDangling_eq_false_iff.mp (Bool.eq_false_iff.mpr attached)) rfl⟩
  | .call name before args after closed, last, next, advanced => by
      rw [advance?] at advanced
      split at advanced
      · contradiction
      next attached =>
        have first :=
          isDangling_eq_false_iff.mp (Bool.eq_false_iff.mpr attached)
        split at advanced
        next isVariable =>
          cases advanced
          exact ⟨.reference isVariable before args after closed,
            reaches_item rfl first rfl⟩
        next =>
          split at advanced
          next isGroup =>
            rw [Bool.and_eq_true, String.isEmpty_iff, Bool.not_eq_true',
              List.isEmpty_eq_false_iff] at isGroup
            obtain ⟨rfl, nonempty⟩ := isGroup
            obtain ⟨inside, atEnd⟩ := Option.filter_eq_some_iff.mp advanced
            rw [Bool.not_eq_true'] at atEnd
            obtain ⟨parts, reaches⟩ := areParts_of_advanceAll? args inside
            exact ⟨.group nonempty parts (reaches.isBounded atEnd) before after
              closed, reaches_item rfl first atEnd⟩
          next => contradiction

theorem areParts_of_advanceAll? :
    (nodes : List Node) → {last next : String} →
      advanceAll? last nodes = some next →
      (∀ node ∈ nodes, IsPart node) ∧ Reaches last nodes next
  | [], last, next, advanced => by
      rw [advanceAll?] at advanced
      cases advanced
      exact ⟨List.forall_mem_nil _, reaches_of_solid_eq_nil rfl last⟩
  | node :: rest, last, next, advanced => by
      rw [advanceAll?] at advanced
      split at advanced
      next middle passed =>
        obtain ⟨isPart, reaches⟩ := isPart_of_advance? node passed
        obtain ⟨parts, further⟩ := areParts_of_advanceAll? rest advanced
        exact ⟨List.forall_mem_cons.mpr ⟨isPart, parts⟩, reaches.append further⟩
      next => contradiction

end

/-! Every expression is passed. -/

/-- A word has a text, a space is no operator, and a bracketed part that holds
anything holds more than spaces. -/
def IsLegible : Node → Prop
  | .word text => text ≠ ""
  | .space text => isOperator text = false
  | .call name _ args _ _ =>
      name = "" → args ≠ [] → ∃ arg ∈ args, arg.isSpace = false
  | _ => True

def AreLegible (nodes : List Node) : Prop :=
  ∀ node ∈ nodes, IsLegible node

theorem toString_toChar_ne_empty (kind : Divider) :
    kind.toChar.toString ≠ "" := by
  cases kind <;> decide

theorem sameName_empty : sameName "" "var" = false := by decide +kernel

theorem name_ne_empty_of_isVariable {name : String}
    (isVariable : sameName name "var" = true) : name ≠ "" := by
  rintro rfl
  rw [sameName_empty] at isVariable
  contradiction

theorem isOperator_of_isSpace (isSpace : node.isSpace = true)
    (legible : IsLegible node) : isOperator node.text = false := by
  cases node with
  | space => exact legible
  | word | quoted | divider | call => contradiction

theorem atEveryDepth_legible_nil : AtEveryDepth AreLegible [] :=
  atEveryDepth_iff.mpr ⟨List.forall_mem_nil _, List.forall_mem_nil _⟩

theorem atEveryDepth_legible_cons :
    AtEveryDepth AreLegible (node :: nodes) ↔
      IsLegible node ∧
        (∀ args, node.args? = some args → AtEveryDepth AreLegible args) ∧
        AtEveryDepth AreLegible nodes := by
  rw [atEveryDepth_iff, @atEveryDepth_iff AreLegible nodes, AreLegible,
    List.forall_mem_cons, List.forall_mem_cons]
  constructor
  · rintro ⟨⟨isLegible, areLegible⟩, inside, deeper⟩
    exact ⟨isLegible, inside, areLegible, deeper⟩
  · rintro ⟨isLegible, inside, areLegible, deeper⟩
    exact ⟨⟨isLegible, areLegible⟩, inside, deeper⟩

theorem isLegible_of_isTidy (tidy : node.IsTidy) (closed : node.isClosed = true) :
    IsLegible node := by
  cases node with
  | word => exact tidy
  | space => exact isOperator_of_isBlankText tidy.2
  | quoted | divider => trivial
  | call name before args after isClosed =>
      intro _ nonempty
      have isLast := List.getLast?_eq_some_getLast nonempty
      exact ⟨args.getLast nonempty, List.getLast_mem nonempty,
        (tidy.2.2 closed).1 _ isLast⟩

/-- Of what is read, the closed items and all that is inside them is legible. -/
theorem atEveryDepth_legible_of_isNormal (normal : AtEveryDepth IsNormal nodes)
    (subset : more ⊆ nodes) (closed : ∀ node ∈ more, node.isClosed = true) :
    AtEveryDepth AreLegible more := by
  rw [atEveryDepth_iff]
  constructor
  · intro node member
    exact isLegible_of_isTidy ((normal nodes .whole).tidy node (subset member))
      (closed node member)
  · intro node member args isCall inner within arg isArg
    have argsNormal := normal.args (subset member) isCall
    have argsClosed : ∀ arg ∈ args, arg.isClosed = true :=
      closed_args normal (subset member) isCall (closed node member)
    exact isLegible_of_isTidy ((argsNormal inner within).tidy arg isArg)
      (atEveryDepth_closed argsNormal argsClosed inner within arg isArg)

mutual

/-- A part is passed where it may stand, and an item leaves a text in hand. -/
theorem exists_advance? :
    (node : Node) → IsPart node → IsLegible node →
      (∀ args, node.args? = some args → AtEveryDepth AreLegible args) →
      (last : String) → (last = "" → isOperator node.text = false) →
      ∃ next, advance? last node = some next ∧
        (node.isSpace = false → next ≠ "")
  | .word text, .word isWord, legible, _, last, first => by
      have attached : isDangling last text = false :=
        isDangling_eq_false_iff.mpr first
      refine ⟨text, ?_, fun _ => legible⟩
      rw [advance?, attached, isWord_iff.mpr isWord]
      rfl
  | .space text, .space _, _, _, last, first => by
      have attached : isDangling last text = false :=
        isDangling_eq_false_iff.mpr first
      refine ⟨last, ?_, fun notSpace => Bool.noConfusion notSpace⟩
      rw [advance?, attached]
      rfl
  | .divider kind _ _, .divider _ _ _, _, _, last, first => by
      have attached : isDangling last kind.toChar.toString = false :=
        isDangling_eq_false_iff.mpr first
      refine ⟨kind.toChar.toString, ?_, fun _ => toString_toChar_ne_empty kind⟩
      rw [advance?, attached]
      rfl
  | .call name _ _ _ _, .reference isVariable _ _ _ _, _, _, last, first => by
      have attached : isDangling last name = false :=
        isDangling_eq_false_iff.mpr first
      refine ⟨name, ?_, fun _ => name_ne_empty_of_isVariable isVariable⟩
      rw [advance?, attached, isVariable]
      rfl
  | .call _ _ args _ _, .group nonempty parts bounded _ _ _, legible, inside,
      last, first => by
      have attached : isDangling last "" = false :=
        isDangling_eq_false_iff.mpr first
      obtain ⟨next, advanced, leaves⟩ := exists_advanceAll? args parts
        (inside args rfl) "" fun _ => bounded.first
      have atEnd : isOperator next = false :=
        bounded.isOperator_eq (areParts_of_advanceAll? args advanced).2
      refine ⟨next, ?_, fun _ => leaves ?_⟩
      · rw [advance?, attached, if_neg Bool.false_ne_true, sameName_empty, advanced]
        simp [nonempty, atEnd]
      · obtain ⟨arg, member, notSpace⟩ := legible rfl nonempty
        intro isEmpty
        rw [solid_eq_nil_iff.mp isEmpty arg member] at notSpace
        contradiction

theorem exists_advanceAll? :
    (nodes : List Node) → (∀ node ∈ nodes, IsPart node) →
      AtEveryDepth AreLegible nodes → (last : String) →
      (last = "" → ∀ node ∈ (solid nodes).head?, isOperator node.text = false) →
      ∃ next, advanceAll? last nodes = some next ∧
        (solid nodes ≠ [] → next ≠ "")
  | [], _, _, last, _ => by
      rw [advanceAll?]
      exact ⟨last, rfl, fun nonempty => absurd rfl nonempty⟩
  | node :: rest, parts, legible, last, first => by
      obtain ⟨isPart, restParts⟩ := List.forall_mem_cons.mp parts
      obtain ⟨isLegible, inside, restLegible⟩ :=
        atEveryDepth_legible_cons.mp legible
      have split : solid (node :: rest) = solid [node] ++ solid rest :=
        solid_append [node] rest
      cases isSpace : node.isSpace with
      | true =>
          rw [split, solid_of_isSpace isSpace, List.nil_append] at first ⊢
          obtain ⟨middle, advanced, -⟩ := exists_advance? node isPart isLegible
            inside last fun _ => isOperator_of_isSpace isSpace isLegible
          have same : middle = last :=
            (isPart_of_advance? node advanced).2.keeps (solid_of_isSpace isSpace)
          subst same
          rw [advanceAll?, advanced]
          exact exists_advanceAll? rest restParts restLegible middle first
      | false =>
          rw [split, solid_of_notSpace isSpace] at first ⊢
          obtain ⟨middle, advanced, leaves⟩ := exists_advance? node isPart
            isLegible inside last fun atStart => first atStart node rfl
          have inHand : middle ≠ "" := leaves isSpace
          -- A text is in hand now, so an operator may follow.
          obtain ⟨next, further, leavesFurther⟩ := exists_advanceAll? rest
            restParts restLegible middle fun atStart => absurd atStart inHand
          rw [advanceAll?, advanced]
          refine ⟨next, further, fun _ => ?_⟩
          by_cases isEmpty : solid rest = []
          · rw [(areParts_of_advanceAll? rest further).2.keeps isEmpty]
            exact inHand
          · exact leavesFurther isEmpty

end

/-! The whole expression. -/

theorem isExpression_of_check (nonempty : nodes ≠ [])
    (advanced : advanceAll? "" nodes = some next)
    (atEnd : isOperator next = false) : IsExpression nodes := by
  obtain ⟨parts, reaches⟩ := areParts_of_advanceAll? nodes advanced
  exact ⟨nonempty, parts, reaches.isBounded atEnd⟩

theorem IsExpression.check (expression : IsExpression nodes)
    (legible : AtEveryDepth AreLegible nodes) :
    ∃ next, advanceAll? "" nodes = some next ∧ isOperator next = false := by
  obtain ⟨next, advanced, -⟩ := exists_advanceAll? nodes expression.parts
    legible "" fun _ => expression.bounded.first
  exact ⟨next, advanced, expression.bounded.isOperator_eq
    (areParts_of_advanceAll? nodes advanced).2⟩

/-! What is read from a text need not be legible in a call that the text does not
close. Such a call stands last at every depth, so no item follows the text in hand. -/

theorem advanceAll?_concat {final : Node}
    (passed : advanceAll? last nodes = some middle)
    (advanced : advance? middle final = some next) :
    advanceAll? last (nodes ++ [final]) = some next := by
  induction nodes generalizing last with
  | nil =>
      cases passed
      rw [List.nil_append, advanceAll?, advanced]
      rfl
  | cons node rest ih =>
      rw [advanceAll?] at passed
      rw [List.cons_append, advanceAll?]
      cases stepped : advance? last node with
      | none =>
          rw [stepped] at passed
          contradiction
      | some inHand =>
          rw [stepped] at passed
          exact ih passed

theorem isOperator_head?_of_unclosed {final : Node}
    (bounded : IsBounded (nodes ++ [final])) (unclosed : final.isClosed = false)
    (leaves : solid nodes ≠ [] → middle ≠ "") (atStart : middle = "") :
    isOperator final.text = false := by
  have notSpace : final.isSpace = false := by
    cases final with
    | space => contradiction
    | word | quoted | divider | call => rfl
  have first := bounded.first
  rw [solid_append, solid_of_notSpace notSpace,
    not_ne_iff.mp fun isSolid => leaves isSolid atStart] at first
  exact first final rfl

theorem exists_advanceAll?_of_isNormal (parts : ∀ node ∈ nodes, IsPart node)
    (bounded : IsBounded nodes) (normal : AtEveryDepth IsNormal nodes)
    (unclosed : ∀ node ∈ nodes, node.isClosed = false → ∀ last : String,
      (last = "" → isOperator node.text = false) →
        ∃ next, advance? last node = some next) :
    ∃ next, advanceAll? "" nodes = some next := by
  rcases List.eq_nil_or_concat' nodes with rfl | ⟨init, final, rfl⟩
  · exact ⟨"", rfl⟩
  have initClosed := (normal _ .whole).unclosed_last
  rw [List.dropLast_concat] at initClosed
  cases isClosed : final.isClosed with
  | true =>
      have closed : ∀ node ∈ init ++ [final], node.isClosed = true :=
        List.forall_mem_append.mpr
          ⟨initClosed, List.forall_mem_singleton.mpr isClosed⟩
      obtain ⟨next, advanced, -⟩ := exists_advanceAll? _ parts
        (atEveryDepth_legible_of_isNormal normal (List.Subset.refl _) closed) ""
        fun _ => bounded.first
      exact ⟨next, advanced⟩
  | false =>
      have initFirst : ∀ node ∈ (solid init).head?,
          isOperator node.text = false := by
        intro node isFirst
        apply bounded.first
        rw [solid_append, List.head?_append, Option.mem_def.mp isFirst]
        rfl
      obtain ⟨middle, passed, leaves⟩ := exists_advanceAll? init
        (List.forall_mem_append.mp parts).1
        (atEveryDepth_legible_of_isNormal normal
          (List.subset_append_left init [final]) initClosed) ""
        fun _ => initFirst
      obtain ⟨next, advanced⟩ := unclosed final List.mem_concat_self isClosed
        middle (isOperator_head?_of_unclosed bounded isClosed leaves)
      exact ⟨next, advanceAll?_concat passed advanced⟩

theorem exists_advance?_of_unclosed (isPart : IsPart node)
    (normal : ∀ args, node.args? = some args → AtEveryDepth IsNormal args)
    (unclosed : node.isClosed = false) (last : String)
    (first : last = "" → isOperator node.text = false) :
    ∃ next, advance? last node = some next := by
  induction isPart generalizing last with
  | space | divider | word => contradiction
  | @reference name isVariable before args after closed =>
      have attached : isDangling last name = false :=
        isDangling_eq_false_iff.mpr first
      refine ⟨name, ?_⟩
      rw [advance?, attached, isVariable]
      rfl
  | @group args nonempty parts bounded before after closed ih =>
      have attached : isDangling last "" = false :=
        isDangling_eq_false_iff.mpr first
      have argsNormal := normal args rfl
      obtain ⟨next, advanced⟩ :=
        exists_advanceAll?_of_isNormal parts bounded argsNormal
          fun arg member => ih arg member fun inner isCall =>
            argsNormal.args member isCall
      have atEnd : isOperator next = false :=
        bounded.isOperator_eq (areParts_of_advanceAll? args advanced).2
      refine ⟨next, ?_⟩
      rw [advance?, attached, if_neg Bool.false_ne_true, sameName_empty, advanced]
      simp [nonempty, atEnd]

theorem IsExpression.check_of_isNormal (expression : IsExpression nodes)
    (normal : AtEveryDepth IsNormal nodes) :
    ∃ next, advanceAll? "" nodes = some next ∧ isOperator next = false := by
  obtain ⟨next, advanced⟩ := exists_advanceAll?_of_isNormal expression.parts
    expression.bounded normal fun node member =>
      exists_advance?_of_unclosed (expression.parts node member)
        fun args isCall => normal.args member isCall
  exact ⟨next, advanced, expression.bounded.isOperator_eq
    (areParts_of_advanceAll? nodes advanced).2⟩

theorem isCalc_call_iff {name before after : String} {closed : Bool} :
    (Node.call name before nodes after closed).isCalc = true ↔
      sameName name "calc" = true ∧ nodes ≠ [] ∧
        ∃ next, advanceAll? "" nodes = some next ∧ isOperator next = false := by
  rw [Node.isCalc, Node.argsOf?]
  cases named : sameName name "calc" with
  | false => simp [named]
  | true => simp [named, Option.any_eq_true]

/-- What `calc()` accepts, whatever is put in: nothing but expressions. -/
theorem isExpression_of_isCalc {name before after : String} {closed : Bool}
    (isCalc : (Node.call name before nodes after closed).isCalc = true) :
    IsExpression nodes := by
  obtain ⟨-, nonempty, next, advanced, atEnd⟩ := isCalc_call_iff.mp isCalc
  exact isExpression_of_check nonempty advanced atEnd

/-- `calc()` accepts the expressions and nothing else. -/
theorem isCalc_iff_isExpression (name before : String) (args : List Node)
    (after : String) (closed : Bool) (legible : AtEveryDepth AreLegible args) :
    (Node.call name before args after closed).isCalc = true ↔
      sameName name "calc" = true ∧ IsExpression args := by
  constructor
  · intro isCalc
    exact ⟨(isCalc_call_iff.mp isCalc).1, isExpression_of_isCalc isCalc⟩
  · rintro ⟨named, expression⟩
    exact isCalc_call_iff.mpr
      ⟨named, expression.nonempty, expression.check legible⟩

theorem isCalc_iff_isExpression_groups :
    IsExpression
        [.call "" " " [.word "1px", .space " ", .word "-", .space " ",
            .call "var" "" [.quoted '"' "a" true] "" true] "" true,
          .divider .slash "" "", .word "-2*3"] ∧
      ¬ IsExpression
        [.call "" "" [.word "1px", .space " ", .word "-"] "" true, .space " ",
          .word "2px"] := by
  constructor
  · have legible : AtEveryDepth AreLegible
        [.call "" " " [.word "1px", .space " ", .word "-", .space " ",
            .call "var" "" [.quoted '"' "a" true] "" true] "" true,
          .divider .slash "" "", .word "-2*3"] := by
      simp [atEveryDepth_legible_cons, atEveryDepth_legible_nil, IsLegible,
        Node.args?, Node.isSpace, isOperator]
    have isCalc := isCalc_iff_isExpression "calc" "" _ "" true legible
    exact (isCalc.mp (by decide +kernel)).2
  · have legible : AtEveryDepth AreLegible
        [.call "" "" [.word "1px", .space " ", .word "-"] "" true, .space " ",
          .word "2px"] := by
      simp [atEveryDepth_legible_cons, atEveryDepth_legible_nil, IsLegible,
        Node.args?, Node.isSpace, isOperator]
    have isCalc := isCalc_iff_isExpression "calc" "" _ "" true legible
    have rejected : (Node.call "calc" ""
        [.call "" "" [.word "1px", .space " ", .word "-"] "" true, .space " ",
          .word "2px"] "" true).isCalc = false := by
      decide +kernel
    intro expression
    have accepted := isCalc.mpr ⟨by decide +kernel, expression⟩
    rw [rejected] at accepted
    contradiction

/-- For the calls that are read from a text, however deep, no condition is left. -/
theorem isCalc_iff_of_isWithin_parse {text : String} {args : List Node}
    {name before after : String} {closed : Bool}
    (within : IsWithin nodes (parse text))
    (member : .call name before args after closed ∈ nodes) :
    (Node.call name before args after closed).isCalc = true ↔
      sameName name "calc" = true ∧ IsExpression args := by
  have normal := (atEveryDepth_isNormal_parse text).of_isWithin within
  constructor
  · intro isCalc
    exact ⟨(isCalc_call_iff.mp isCalc).1, isExpression_of_isCalc isCalc⟩
  · intro described
    obtain ⟨named, expression⟩ := described
    exact isCalc_call_iff.mpr ⟨named, expression.nonempty,
      expression.check_of_isNormal (normal.args member rfl)⟩

end Calc

end StyleValue
