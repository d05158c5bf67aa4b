import StyleValue.Proofs.Quantity.Expression
import StyleValue.Sequence.Separated

/-! What an accepted expression says about its words and signs, in every
bracketed part. A sign always has an item on both sides, but nothing looks at
what stands right next to it, and the pieces of a glued word are not read. -/

namespace StyleValue

namespace Calc

variable {nodes inner : List Node} {node : Node}

/-- The items of the expression itself or of a bracketed part at any depth.
What is inside a reference to a variable is no part. -/
inductive IsLevel (inner : List Node) : List Node → Prop
  | whole : IsLevel inner inner
  | inside {nodes args : List Node} {node : Node} (member : node ∈ nodes)
      (isCall : node.args? = some args) (notVariable : node.isVariable = false)
      (level : IsLevel inner args) : IsLevel inner nodes

theorem IsPart.isExpression (isPart : IsPart node)
    (notVariable : node.isVariable = false) {args : List Node}
    (isCall : node.args? = some args) : IsExpression args := by
  cases isPart with
  | space | divider | word => contradiction
  | reference isVariable =>
      rw [Node.isVariable_iff.mpr ⟨_, _, _, _, _, rfl, isVariable⟩] at notVariable
      contradiction
  | group nonempty parts bounded =>
      cases isCall
      exact ⟨nonempty, parts, bounded⟩

theorem IsExpression.of_isLevel (level : IsLevel inner nodes)
    (expression : IsExpression nodes) : IsExpression inner := by
  induction level with
  | whole => exact expression
  | inside member isCall notVariable _ ih =>
      exact ih ((expression.parts _ member).isExpression notVariable isCall)

/-! Around an operator. -/

variable {earlier later : List Node}

theorem solid_around (notSpace : node.isSpace = false) :
    solid (earlier ++ node :: later) = solid earlier ++ node :: solid later := by
  have split : earlier ++ node :: later = earlier ++ ([node] ++ later) := rfl
  rw [split, solid_append, solid_append, solid_of_notSpace notSpace]
  rfl

theorem exists_notSpace_of_solid (nonempty : solid nodes ≠ []) :
    ∃ item ∈ nodes, item.isSpace = false := by
  by_contra none
  refine nonempty (solid_eq_nil_iff.mpr fun item member => ?_)
  rw [← Bool.not_eq_false]
  exact fun notSpace => none ⟨item, member, notSpace⟩

theorem IsBounded.exists_around
    (bounded : IsBounded (earlier ++ node :: later))
    (notSpace : node.isSpace = false) (operator : isOperator node.text = true) :
    (∃ item ∈ earlier, item.isSpace = false) ∧
      ∃ item ∈ later, item.isSpace = false := by
  obtain ⟨first, last⟩ := bounded
  rw [solid_around notSpace] at first last
  constructor
  · apply exists_notSpace_of_solid
    intro isEmpty
    rw [isEmpty] at first
    have atFront := first node rfl
    rw [operator] at atFront
    contradiction
  · apply exists_notSpace_of_solid
    intro isEmpty
    rw [isEmpty, List.getLast?_concat] at last
    have atEnd := last node rfl
    rw [operator] at atEnd
    contradiction

/-- No two items touch: of two neighbours, one is a space. -/
def AreSpaced (nodes : List Node) : Prop :=
  nodes.IsChain fun first second =>
    first.isSpace = true ∨ second.isSpace = true

theorem exists_space_of_isSpace (isSpace : node.isSpace = true) :
    ∃ text, node = .space text := by
  cases node with
  | space text => exact ⟨text, rfl⟩
  | word | quoted | divider | call => contradiction

theorem AreSpaced.exists_space_around
    (spaced : AreSpaced (earlier ++ node :: later))
    (notSpace : node.isSpace = false) (nonempty : earlier ≠ [])
    (nonempty' : later ≠ []) :
    (∃ text, earlier.getLast? = some (.space text)) ∧
      ∃ text, later.head? = some (.space text) := by
  obtain ⟨-, chain, joint⟩ := List.isChain_append.mp spaced
  constructor
  · have isLast := List.getLast?_eq_some_getLast nonempty
    have isSpace := joint _ isLast node rfl
    rw [notSpace] at isSpace
    obtain ⟨text, same⟩ :=
      exists_space_of_isSpace (isSpace.resolve_right Bool.false_ne_true)
    exact ⟨text, same ▸ isLast⟩
  · obtain ⟨following, rest, rfl⟩ := List.exists_cons_of_ne_nil nonempty'
    have isSpace := (List.isChain_cons_cons.mp chain).1
    rw [notSpace] at isSpace
    obtain ⟨text, rfl⟩ :=
      exists_space_of_isSpace (isSpace.resolve_left Bool.false_ne_true)
    exact ⟨text, rfl⟩

theorem isExpression_args_of_isCalc (isCalc : node.isCalc = true) {args : List Node}
    (isCall : node.args? = some args) : IsExpression args := by
  cases node with
  | word | space | quoted | divider => contradiction
  | call =>
      cases isCall
      exact isExpression_of_isCalc isCalc

/-- In an accepted expression and all its bracketed parts, a word is a term, a
lone operator or glued, and a sign has an item before and after it. Where items
do not touch, a space stands on both sides of the sign. -/
theorem operands_of_isCalc {args : List Node} (isCalc : node.isCalc = true)
    (isCall : node.args? = some args) (level : IsLevel inner args) :
    (∀ text, .word text ∈ inner →
      isTerm text = true ∨ isOperator text = true ∨ IsGlued text) ∧
    ∀ earlier sign later, inner = earlier ++ .word sign :: later →
      sign = "+" ∨ sign = "-" →
      (∃ item ∈ earlier, item.isSpace = false) ∧
      (∃ item ∈ later, item.isSpace = false) ∧
      (AreSpaced inner →
        (∃ text, earlier.getLast? = some (.space text)) ∧
          ∃ text, later.head? = some (.space text)) := by
  have expression := (isExpression_args_of_isCalc isCalc isCall).of_isLevel level
  constructor
  · intro text member
    cases expression.parts _ member with
    | word isWord => exact isWord
  · rintro earlier sign later rfl isSign
    have operator : isOperator (Node.word sign).text = true := by
      rcases isSign with rfl | rfl
      · decide
      · decide
    obtain ⟨before, after⟩ := expression.bounded.exists_around rfl operator
    refine ⟨before, after, fun spaced => ?_⟩
    obtain ⟨_, inEarlier, _⟩ := before
    obtain ⟨_, inLater, _⟩ := after
    exact spaced.exists_space_around rfl (List.ne_nil_of_mem inEarlier)
      (List.ne_nil_of_mem inLater)

theorem operands_of_isCalc_group :
    IsLevel [.word "1px", .space " ", .word "+", .space " ", .word "-2*3em"]
        [.word "4", .divider .slash " " " ",
          .call "" "" [.word "1px", .space " ", .word "+", .space " ",
            .word "-2*3em"] "" true] ∧
      IsGlued "-2*3em" ∧
      (∃ text, [Node.word "1px", .space " "].getLast? = some (.space text)) ∧
      ∃ text, [Node.space " ", .word "-2*3em"].head? = some (.space text) := by
  have level : IsLevel
      [.word "1px", .space " ", .word "+", .space " ", .word "-2*3em"]
      [.word "4", .divider .slash " " " ",
        .call "" "" [.word "1px", .space " ", .word "+", .space " ",
          .word "-2*3em"] "" true] :=
    .inside (List.mem_of_getLast? rfl) rfl (by decide +kernel) .whole
  have isCalc : (Node.call "calc" "" [.word "4", .divider .slash " " " ",
      .call "" "" [.word "1px", .space " ", .word "+", .space " ",
        .word "-2*3em"] "" true] "" true).isCalc = true := by
    decide +kernel
  have spaced : AreSpaced
      [.word "1px", .space " ", .word "+", .space " ", .word "-2*3em"] := by
    simp [AreSpaced, Node.isSpace]
  obtain ⟨words, signs⟩ := operands_of_isCalc isCalc rfl level
  have isWord := words "-2*3em" (List.mem_of_getLast? rfl)
  have notTerm : isTerm "-2*3em" = false := by decide +kernel
  have notOperator : isOperator "-2*3em" = false := by decide +kernel
  have glued : IsGlued "-2*3em" := by
    simpa only [notTerm, notOperator, Bool.false_eq_true, false_or] using isWord
  obtain ⟨-, -, around⟩ := signs [.word "1px", .space " "] "+"
    [.space " ", .word "-2*3em"] rfl (.inl rfl)
  exact ⟨level, glued, around spaced⟩

/-- The pieces between `*` and `/`. -/
def pieces (text : String) : List String :=
  ((groupsBy (fun c => c == '*' || c == '/') text.toList).filter
    (· ≠ [])).map String.ofList

theorem isCalc_unread_pieces :
    (∃ args, parse "calc(foo*bar)" = [.call "calc" "" args "" true] ∧
      (Node.call "calc" "" args "" true).isCalc = true ∧
      .word "foo*bar" ∈ args ∧ isTerm "foo*bar" = false ∧
      isOperator "foo*bar" = false ∧
      pieces "foo*bar" = ["foo", "bar"] ∧ isTerm "foo" = false) ∧
    ∃ before after, parse "calc((1px)+ 2px)" =
        [.call "calc" "" (before :: .word "+" :: after) "" true] ∧
      (Node.call "calc" "" (before :: .word "+" :: after) "" true).isCalc =
        true ∧
      before.isSpace = false := by
  constructor
  · have isLexed : Lexeme.lex 0 "calc(foo*bar)".toList =
        [.opening "calc".toList [], .word "foo*bar".toList, .closing] := by
      decide +kernel
    refine ⟨[.word "foo*bar"], ?_, by decide +kernel, List.mem_cons_self,
      by decide +kernel, by decide +kernel, by decide +kernel,
      by decide +kernel⟩
    rw [parse, isLexed]
    rfl
  · have isLexed : Lexeme.lex 0 "calc((1px)+ 2px)".toList =
        [.opening "calc".toList [], .opening [] [], .word "1px".toList,
          .closing, .word "+".toList, .blank [' '], .word "2px".toList,
          .closing] := by
      decide +kernel
    refine ⟨.call "" "" [.word "1px"] "" true, [.space " ", .word "2px"], ?_,
      by decide +kernel, rfl⟩
    rw [parse, isLexed]
    rfl

end Calc

end StyleValue
