import Mathlib.Data.List.Basic
import StyleValue.Proofs.Tree.Comment
import StyleValue.Proofs.Tree.RoundTrip

/-! A comma or a blank outside every call parts a text in two, and each part is
read as if it stood alone. -/

namespace StyleValue

/-- The text ends outside every call and cuts nothing off. -/
structure IsComplete (text : String) : Prop where
  closed : (Draft.empty.extend (Lexeme.lex 0 text.toList)).calls = []
  uncut : ∀ lexeme ∈ Lexeme.lex 0 text.toList, lexeme.isWhole = true

/-! Reading. -/

namespace Lexeme

/-- The first symbol ends a word before it, and makes neither the opening of a
call out of it nor a comment out of a slash. -/
def StartsApart (text : List Char) : Prop :=
  ∀ nested, ∀ c ∈ text.head?, endsWord nested c = true ∧ c ≠ '(' ∧ c ≠ '*'

theorem startsApart_toChar (kind : Divider) (rest : List Char) :
    StartsApart (kind.toChar :: rest) := by
  rintro nested c ⟨⟩
  have marks := endsWord_toChar nested kind
  exact ⟨marks.1, marks.2.1, marks.2.2.1⟩

theorem startsApart_of_isBlank {symbol : Char}
    (isBlank : Symbol.isBlank symbol = true) (rest : List Char) :
    StartsApart (symbol :: rest) := by
  rintro nested c ⟨⟩
  exact endsWord_of_blank nested isBlank

theorem dividerOf?_eq_none {c : Char} (notMark : c ∉ [',', ':', '/']) :
    dividerOf? c = none := by
  cases isDivider : dividerOf? c with
  | none => rfl
  | some kind =>
      rw [dividerOf?_eq_some_iff] at isDivider
      subst isDivider
      cases kind <;> simp [Divider.toChar] at notMark

theorem takesBlank_lex {text : List Char}
    (noDivider : ∀ c ∈ text.head?, dividerOf? c = none) :
    takesBlank (lex 0 text) = false := by
  obtain ⟨textEq, fit⟩ := lex_eq_iff.mp (Eq.refl (lex 0 text))
  cases isLexed : lex 0 text with
  | nil => rfl
  | cons lexeme rest =>
      rw [isLexed] at textEq fit
      cases lexeme with
      | divider kind =>
          have isDivider : dividerOf? kind.toChar = some kind :=
            dividerOf?_eq_some_iff.mpr rfl
          rw [noDivider kind.toChar (by rw [← textEq]; rfl)] at isDivider
          contradiction
      | closing =>
          cases fit.1 with
          | closing inside => contradiction
      | blank | quoted | comment | opening | url | word => rfl

/-- What is added behind the lexemes matters only to the last of them. -/
theorem AllFit.append_of_fits {first second : List (Lexeme Char)} {depth : Nat}
    (fit : AllFit depth first)
    (joins : ∀ init last, first = init ++ [last] →
      last.Fits (0 < init.foldl depthAfter depth) [] →
      last.Fits (0 < init.foldl depthAfter depth) (second.flatMap text))
    (further : AllFit (first.foldl depthAfter depth) second) :
    AllFit depth (first ++ second) := by
  induction first generalizing depth with
  | nil => exact further
  | cons lexeme rest ih =>
      obtain ⟨fits, restFit⟩ := fit
      cases rest with
      | nil => exact ⟨joins [] lexeme rfl fits, further⟩
      | cons next more =>
          refine ⟨fits.of_head? ?_, ih restFit ?_ further⟩
          · have nonempty : next.text ≠ [] := restFit.1.text_ne_nil
            calc
              _ = next.text.head? := List.head?_append_of_ne_nil _ nonempty
              _ = _ := (List.head?_append_of_ne_nil _ nonempty).symm
          · intro init last isLast
            exact joins (lexeme :: init) last (by rw [isLast]; rfl)

theorem AllFit.append {first second : List (Lexeme Char)} {depth : Nat}
    (fit : AllFit depth first)
    (uncut : ∀ lexeme ∈ first, lexeme.isWhole = true)
    (stays : ∀ last ∈ first.getLast?, last.absorbsBlank = false)
    (apart : StartsApart (second.flatMap text))
    (further : AllFit (first.foldl depthAfter depth) second) :
    AllFit depth (first ++ second) := by
  refine fit.append_of_fits ?_ further
  rintro init last rfl fits
  exact fits.of_isWhole (uncut last List.mem_concat_self)
    (stays last List.getLast?_concat) (apart _)

theorem AllFit.endsBlank {init : List (Lexeme Char)} {gap : List Char}
    {depth : Nat} (fit : AllFit depth (init ++ [.blank gap])) :
    EndsBlank ((init ++ [Lexeme.blank gap]).flatMap text) := by
  obtain ⟨_, fits, -⟩ := fit.exists_of_append
  cases fits with
  | blank nonempty blank =>
      have isLast := List.getLast?_eq_some_getLast nonempty
      refine ⟨gap.getLast nonempty, ?_, blank _ (List.getLast_mem nonempty)⟩
      rw [List.flatMap_append, List.flatMap_singleton, text,
        List.getLast?_append_of_ne_nil _ nonempty]
      exact isLast

end Lexeme

theorem Draft.length_calls_of_extends {draft result : Draft}
    {lexemes : List (Lexeme Char)} (further : Extends draft lexemes result) :
    result.calls.length =
      lexemes.foldl Lexeme.depthAfter draft.calls.length := by
  induction further with
  | done => rfl
  | blank _ ih => rw [ih, calls_addBlank]; rfl
  | closing _ ih => rw [ih, length_calls_leave]; rfl
  | blankClosing _ ih => rw [ih, length_calls_leave]; rfl
  | blankDivider _ ih | quoted _ ih | comment _ ih | divider _ ih
  | opening _ ih | url _ ih | word _ ih => exact ih

theorem length_calls_lex (text : String) :
    (Draft.empty.extend (Lexeme.lex 0 text.toList)).calls.length =
      (Lexeme.lex 0 text.toList).foldl Lexeme.depthAfter 0 :=
  Draft.length_calls_of_extends (Draft.extends_extend _ _)

namespace IsComplete

variable {text : String}

theorem foldl_depthAfter (complete : IsComplete text) :
    (Lexeme.lex 0 text.toList).foldl Lexeme.depthAfter 0 = 0 := by
  rw [← length_calls_lex, complete.closed]
  rfl

/-- What the text ends with takes in no blank behind the text. -/
theorem absorbsBlank_eq_false (complete : IsComplete text)
    (notBlank : ¬ Lexeme.EndsBlank text.toList) :
    ∀ last ∈ (Lexeme.lex 0 text.toList).getLast?,
      last.absorbsBlank = false := by
  intro last isLast
  obtain ⟨init, isLexed⟩ := List.getLast?_eq_some_iff.mp isLast
  cases last with
  | blank gap =>
      have fit := Lexeme.allFit_lex 0 text.toList
      rw [isLexed] at fit
      have ends := fit.endsBlank
      rw [← isLexed, Lexeme.flatMap_text_lex] at ends
      contradiction
  | opening name before =>
      have depth := complete.foldl_depthAfter
      rw [isLexed, List.foldl_concat] at depth
      contradiction
  | quoted | comment | divider | url | closing | word => rfl

theorem lex_append (complete : IsComplete text)
    (notBlank : ¬ Lexeme.EndsBlank text.toList)
    {further : List (Lexeme Char)} (fit : Lexeme.AllFit 0 further)
    (apart : Lexeme.StartsApart (further.flatMap Lexeme.text)) :
    Lexeme.lex 0 (text.toList ++ further.flatMap Lexeme.text) =
      Lexeme.lex 0 text.toList ++ further := by
  rw [Lexeme.lex_eq_iff]
  constructor
  · rw [List.flatMap_append, Lexeme.flatMap_text_lex]
  · apply (Lexeme.allFit_lex 0 text.toList).append complete.uncut
      (complete.absorbsBlank_eq_false notBlank) apart
    rwa [complete.foldl_depthAfter]

end IsComplete

/-! Building. -/

namespace Draft

theorem extend_append {first : List (Lexeme Char)}
    (stays : ∀ gap, first.getLast? ≠ some (.blank gap))
    (draft : Draft) (second : List (Lexeme Char)) :
    draft.extend (first ++ second) = (draft.extend first).extend second := by
  fun_induction extend draft first with
  | case1 => rfl
  | case2 draft gap kind rest ih =>
      exact ih fun last isLast =>
        stays last (List.mem_getLast?_cons (List.mem_getLast?_cons isLast))
  | case3 draft gap rest ih =>
      exact ih fun last isLast =>
        stays last (List.mem_getLast?_cons (List.mem_getLast?_cons isLast))
  | case4 draft gap rest notDivider notClosing ih =>
      cases rest with
      | nil => exact absurd rfl (stays gap)
      | cons next rest =>
          rw [List.getLast?_cons_cons] at stays
          rw [← ih stays, List.cons_append, extend]
          · intro kind more isNext
            obtain ⟨rfl, -⟩ := List.cons.inj isNext
            exact notDivider kind rest rfl
          · intro more isNext
            obtain ⟨rfl, -⟩ := List.cons.inj isNext
            exact notClosing rest rfl
  | case5 draft quote value closed rest ih
  | case6 draft body closed rest ih
  | case7 draft kind rest ih
  | case8 draft name before rest ih
  | case9 draft name before text after closed rest ih
  | case10 draft rest ih
  | case11 draft text rest ih =>
      exact ih fun last isLast => stays last (List.mem_getLast?_cons isLast)

/-- The items of the innermost call, with `base` before them where no call is
open. -/
def nodesOnto (base nodes : List Node) : List OpenCall → List Node
  | [] => nodes ++ base
  | _ :: _ => nodes

def callsOnto (base : List Node) : List OpenCall → List OpenCall
  | [] => []
  | call :: calls =>
      { call with outer := nodesOnto base call.outer calls } ::
        callsOnto base calls

/-- The draft with `base` read before all else. -/
def onto (base : List Node) (draft : Draft) : Draft :=
  ⟨nodesOnto base draft.nodes draft.calls, callsOnto base draft.calls⟩

/-- Some item or call stands between the start of the text and its end. -/
def HasBegun (draft : Draft) : Prop :=
  draft.calls = [] → draft.nodes ≠ []

theorem nodesOnto_cons (base : List Node) (node : Node) (nodes : List Node)
    (calls : List OpenCall) :
    nodesOnto base (node :: nodes) calls =
      node :: nodesOnto base nodes calls := by
  cases calls with
  | nil => rfl
  | cons => rfl

theorem push_onto (base : List Node) (draft : Draft) (node : Node) :
    (draft.onto base).push node = (draft.push node).onto base := by
  rw [push, onto, push, onto, nodesOnto_cons]

theorem enter_onto (base : List Node) (draft : Draft) (name before : String) :
    (draft.onto base).enter name before =
      (draft.enter name before).onto base := rfl

theorem leave_onto (base : List Node) (draft : Draft) (gap : String) :
    (draft.onto base).leave gap = (draft.leave gap).onto base := by
  obtain ⟨nodes, calls⟩ := draft
  cases calls with
  | nil => rfl
  | cons call calls =>
      simp only [onto, leave, nodesOnto_cons]
      rfl

theorem divide_onto {draft : Draft} (begun : draft.HasBegun)
    (base : List Node) (gap : String) (kind : Divider) :
    (draft.onto base).divide gap kind = (draft.divide gap kind).onto base := by
  obtain ⟨nodes, calls⟩ := draft
  cases calls with
  | cons => rfl
  | nil =>
      cases nodes with
      | nil => exact absurd rfl (begun rfl)
      | cons last earlier =>
          cases last with
          | space | word | quoted | divider | call => rfl

theorem addBlank_onto {draft : Draft} (begun : draft.HasBegun)
    (base : List Node) (gap : String) :
    (draft.onto base).addBlank gap = (draft.addBlank gap).onto base := by
  obtain ⟨nodes, calls⟩ := draft
  cases nodes with
  | nil =>
      cases calls with
      | nil => exact absurd rfl (begun rfl)
      | cons => rfl
  | cons last earlier =>
      cases calls with
      | nil => cases last <;> rfl
      | cons => cases last <;> rfl

theorem closeAll_onto (base nodes : List Node) (calls : List OpenCall) :
    closeAll (nodesOnto base nodes calls) (callsOnto base calls) =
      base.reverse ++ closeAll nodes calls := by
  induction calls generalizing nodes with
  | nil => exact List.reverse_append
  | cons call calls ih =>
      rw [callsOnto, closeAll, closeAll, ← ih, nodesOnto_cons]
      rfl

theorem finish_onto (base : List Node) (draft : Draft) :
    (draft.onto base).finish = base.reverse ++ draft.finish :=
  closeAll_onto base draft.nodes draft.calls

theorem eq_empty_onto {draft : Draft} (closed : draft.calls = []) :
    draft = empty.onto draft.finish.reverse := by
  obtain ⟨nodes, calls⟩ := draft
  subst closed
  rw [finish, closeAll, List.reverse_reverse]
  rfl

theorem hasBegun_of_nodes_ne_nil {draft : Draft} (items : draft.nodes ≠ []) :
    draft.HasBegun :=
  fun _ => items

theorem hasBegun_push (draft : Draft) (node : Node) :
    (draft.push node).HasBegun :=
  hasBegun_of_nodes_ne_nil (List.cons_ne_nil _ _)

theorem hasBegun_divide (draft : Draft) (gap : String) (kind : Divider) :
    (draft.divide gap kind).HasBegun :=
  hasBegun_of_nodes_ne_nil (List.cons_ne_nil _ _)

theorem hasBegun_addBlank (draft : Draft) (gap : String) :
    (draft.addBlank gap).HasBegun := by
  apply hasBegun_of_nodes_ne_nil
  unfold addBlank
  split <;> exact List.cons_ne_nil _ _

theorem hasBegun_enter (draft : Draft) (name before : String) :
    (draft.enter name before).HasBegun := nofun

theorem HasBegun.leave {draft : Draft} (begun : draft.HasBegun)
    (gap : String) : (draft.leave gap).HasBegun := by
  obtain ⟨nodes, calls⟩ := draft
  cases calls with
  | nil => exact begun
  | cons => exact hasBegun_of_nodes_ne_nil (List.cons_ne_nil _ _)

/-- Once something has been read, nothing that is read looks further back. -/
theorem extend_onto {draft : Draft} (begun : draft.HasBegun)
    (base : List Node) (lexemes : List (Lexeme Char)) :
    (draft.onto base).extend lexemes = (draft.extend lexemes).onto base := by
  fun_induction extend draft lexemes with
  | case1 => rfl
  | case2 draft gap kind rest ih =>
      rw [extend, divide_onto begun, ih (hasBegun_divide _ _ _)]
  | case3 draft gap rest ih =>
      rw [extend, leave_onto, ih (begun.leave _)]
  | case4 draft gap rest notDivider notClosing ih =>
      rw [extend, addBlank_onto begun, ih (hasBegun_addBlank _ _)]
      · exact notDivider
      · exact notClosing
  | case5 draft quote value closed rest ih =>
      rw [extend, push_onto, ih (hasBegun_push _ _)]
  | case6 draft body closed rest ih => exact ih begun
  | case7 draft kind rest ih =>
      rw [extend, divide_onto begun, ih (hasBegun_divide _ _ _)]
  | case8 draft name before rest ih =>
      rw [extend, enter_onto, ih (hasBegun_enter _ _ _)]
  | case9 draft name before text after closed rest ih =>
      rw [extend, push_onto, ih (hasBegun_push _ _)]
  | case10 draft rest ih => rw [extend, leave_onto, ih (begun.leave _)]
  | case11 draft text rest ih =>
      rw [extend, push_onto, ih (hasBegun_push _ _)]

theorem divide_empty_onto {base : List Node}
    (notSpace : ∀ last ∈ base.head?, last.isSpace = false) (kind : Divider) :
    (empty.onto base).divide "" kind =
      empty.onto (.divider kind "" "" :: base) := by
  have nothing : takeSpace (empty.onto base).nodes = ("", base) :=
    takeSpace_of_isSpace_eq_false notSpace
  rw [divide, nothing]
  rfl

theorem addBlank_empty_onto {base : List Node}
    (apart : ∀ last ∈ base.head?,
      last.isSpace = false ∧ last.isDivider = false) (gap : String) :
    (empty.onto base).addBlank gap = empty.onto (.space gap :: base) :=
  addBlank_eq_push apart gap

/-- The first lexeme of a text looks back only if it is a blank, a comment or,
at blanks before it, a divider. -/
theorem extend_empty_onto {text : List Char}
    (notBlank : ¬ Lexeme.StartsBlank text) (notComment : ¬ ['/', '*'] <+: text)
    {base : List Node}
    (apart : takesBlank (Lexeme.lex 0 text) = false ∨
      ∀ last ∈ base.head?, last.isSpace = false) :
    (Draft.empty.onto base).extend (Lexeme.lex 0 text) =
      (Draft.empty.extend (Lexeme.lex 0 text)).onto base := by
  obtain ⟨whole, fit⟩ := Lexeme.lex_eq_iff.mp (Eq.refl (Lexeme.lex 0 text))
  generalize Lexeme.lex 0 text = lexemes at whole fit apart ⊢
  subst whole
  cases lexemes with
  | nil => rfl
  | cons lexeme rest =>
      obtain ⟨fits, -⟩ := fit
      cases lexeme with
      | blank gap =>
          cases fits with
          | blank nonempty blank =>
              obtain ⟨first, more, rfl⟩ := List.exists_cons_of_ne_nil nonempty
              exact absurd (Lexeme.startsBlank_cons.mpr
                (blank first List.mem_cons_self)) notBlank
      | comment body closed =>
          rw [List.flatMap_cons, Lexeme.text, List.cons_append,
            List.cons_append] at notComment
          exact absurd (List.prefix_append ['/', '*'] _) notComment
      | closing =>
          cases fits with
          | closing inside => contradiction
      | divider kind =>
          rw [extend, extend, divide_empty_onto (apart.resolve_left nofun)]
          exact extend_onto (hasBegun_divide empty "" kind) base rest
      | quoted | url | word =>
          rw [extend, extend, push_onto]
          exact extend_onto (hasBegun_push _ _) base rest
      | opening =>
          rw [extend, extend, enter_onto]
          exact extend_onto (hasBegun_enter _ _ _) base rest

end Draft

/-! Both. -/

namespace IsComplete

variable {text : String}

theorem parse_append (complete : IsComplete text)
    (notBlank : ¬ Lexeme.EndsBlank text.toList)
    {further : List (Lexeme Char)} (fit : Lexeme.AllFit 0 further)
    (apart : Lexeme.StartsApart (further.flatMap Lexeme.text)) :
    parse (text ++ String.ofList (further.flatMap Lexeme.text)) =
      ((Draft.empty.onto (parse text).reverse).extend further).finish := by
  have stays : ∀ gap,
      (Lexeme.lex 0 text.toList).getLast? ≠ some (.blank gap) := by
    intro gap isLast
    have apart := complete.absorbsBlank_eq_false notBlank _ isLast
    contradiction
  conv_lhs =>
    rw [parse, String.toList_append, String.toList_ofList,
      complete.lex_append notBlank fit apart, Draft.extend_append stays,
      Draft.eq_empty_onto complete.closed]
  rfl

end IsComplete

theorem finish_extend_onto_cons {second : String}
    (startsApart : ¬ Lexeme.StartsBlank second.toList)
    (notComment : ¬ ['/', '*'] <+: second.toList) {separator : Node}
    (apart : takesBlank (Lexeme.lex 0 second.toList) = false ∨
      separator.isSpace = false) (nodes : List Node) :
    ((Draft.empty.onto (separator :: nodes.reverse)).extend
        (Lexeme.lex 0 second.toList)).finish =
      nodes ++ separator :: parse second := by
  have stays : takesBlank (Lexeme.lex 0 second.toList) = false ∨
      ∀ last ∈ (separator :: nodes.reverse).head?, last.isSpace = false := by
    simpa using apart
  rw [Draft.extend_empty_onto startsApart notComment stays,
    Draft.finish_onto, List.reverse_cons, List.reverse_reverse,
    List.append_assoc]
  rfl

section

variable {first second : String}

theorem parse_append_comma (complete : IsComplete first)
    (notBlank : ¬ Lexeme.EndsBlank first.toList)
    (notSpace : ∀ node ∈ (parse first).getLast?, node.isSpace = false)
    (startsApart : ¬ Lexeme.StartsBlank second.toList)
    (notComment : ¬ ['/', '*'] <+: second.toList) :
    parse (first ++ "," ++ second) =
      parse first ++ .divider .comma "" "" :: parse second := by
  have fit : Lexeme.AllFit 0 (.divider .comma :: Lexeme.lex 0 second.toList) :=
    ⟨.divider nofun, Lexeme.allFit_lex 0 second.toList⟩
  have isParsed := complete.parse_append notBlank fit
    (Lexeme.startsApart_toChar .comma _)
  rw [Draft.extend, Draft.divide_empty_onto (by simpa using notSpace),
    finish_extend_onto_cons startsApart notComment (.inr rfl)] at isParsed
  rw [← isParsed, List.flatMap_cons, Lexeme.flatMap_text_lex,
    String.ofList_append, String.ofList_toList, String.append_assoc]
  rfl

theorem parse_append_blank (complete : IsComplete first)
    (notBlank : ¬ Lexeme.EndsBlank first.toList)
    (plain : ∀ node ∈ (parse first).getLast?,
      node.isSpace = false ∧ node.isDivider = false)
    (startsApart : ¬ Lexeme.StartsBlank second.toList)
    (notComment : ¬ ['/', '*'] <+: second.toList)
    (noDivider : ∀ c ∈ second.toList.head?, Lexeme.dividerOf? c = none) :
    parse (first ++ " " ++ second) =
      parse first ++ .space " " :: parse second := by
  have stops : ∀ c ∈ second.toList.head?, Symbol.isBlank c = false := by
    intro c isFirst
    exact Bool.eq_false_iff.mpr fun isBlank => startsApart ⟨c, isFirst, isBlank⟩
  have fit : Lexeme.AllFit 0 (.blank [' '] :: Lexeme.lex 0 second.toList) := by
    refine ⟨.blank (List.cons_ne_nil _ _) ?_ ?_, Lexeme.allFit_lex 0 _⟩
    · intro c member
      rw [List.mem_singleton.mp member]
      rfl
    · rwa [Lexeme.flatMap_text_lex]
  have isParsed := complete.parse_append notBlank fit
    (Lexeme.startsApart_of_isBlank rfl _)
  have stays := Lexeme.takesBlank_lex noDivider
  rw [Draft.extend_blank stays,
    Draft.addBlank_empty_onto (by simpa using plain),
    finish_extend_onto_cons startsApart notComment (.inl stays)] at isParsed
  rw [← isParsed, List.flatMap_cons, Lexeme.flatMap_text_lex,
    String.ofList_append, String.ofList_toList, String.append_assoc]
  rfl

end

/-- A comma or a blank outside every call parts the text around it: what is
before it and what is behind it are read as they are on their own. -/
theorem parse_append_separator (first second : String)
    (complete : IsComplete first)
    (notBlank : ¬ Lexeme.EndsBlank first.toList)
    (notSpace : ∀ node ∈ (parse first).getLast?, node.isSpace = false)
    (startsApart : ¬ Lexeme.StartsBlank second.toList)
    (notComment : ¬ ['/', '*'] <+: second.toList) :
    parse (first ++ "," ++ second) =
        parse first ++ .divider .comma "" "" :: parse second ∧
      ((∀ node ∈ (parse first).getLast?, node.isDivider = false) →
        (∀ c ∈ second.toList.head?, c ∉ [',', ':', '/']) →
        parse (first ++ " " ++ second) =
          parse first ++ .space " " :: parse second) := by
  refine ⟨parse_append_comma complete notBlank notSpace startsApart notComment,
    ?_⟩
  intro notDivider noMark
  apply parse_append_blank complete notBlank _ startsApart notComment
  · intro c isFirst
    exact Lexeme.dividerOf?_eq_none (noMark c isFirst)
  · intro node isLast
    exact ⟨notSpace node isLast, notDivider node isLast⟩

theorem parse_append_separator_unclosed :
    IsComplete "url( a ) b\\," ∧
      parse ("url( a ) b\\," ++ "," ++ "c(d /* e") =
        parse "url( a ) b\\," ++ .divider .comma "" "" :: parse "c(d /* e" ∧
      parse ("url( a ) b\\," ++ " " ++ "c(d /* e") =
        parse "url( a ) b\\," ++ .space " " :: parse "c(d /* e" := by
  have isLexed : Lexeme.lex 0 "url( a ) b\\,".toList =
      [.url "url".toList [' '] ['a'] [' '] true, .blank [' '],
        .word "b\\,".toList] := by
    decide +kernel
  have complete : IsComplete "url( a ) b\\," := by
    constructor
    · rw [isLexed]
      rfl
    · rw [isLexed]
      decide
  have isLast : (parse "url( a ) b\\,").getLast? = some (.word "b\\,") := by
    rw [parse, isLexed]
    rfl
  have notBlank : ¬ Lexeme.EndsBlank "url( a ) b\\,".toList := by
    rintro ⟨c, ⟨⟩, isBlank⟩
    contradiction
  have startsApart : ¬ Lexeme.StartsBlank "c(d /* e".toList := by
    rintro ⟨c, ⟨⟩, isBlank⟩
    contradiction
  obtain ⟨comma, blank⟩ := parse_append_separator _ "c(d /* e" complete
    notBlank (by rw [isLast]; rintro node ⟨⟩; rfl) startsApart (by decide)
  refine ⟨complete, comma, blank ?_ ?_⟩
  · rw [isLast]
    rintro node ⟨⟩
    rfl
  · rintro c ⟨⟩
    decide

end StyleValue
