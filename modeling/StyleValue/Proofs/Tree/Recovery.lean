import StyleValue.Proofs.Tree.Locality

/-! Calls that the end of the text leaves open are read as if the brackets that
close them stood there. -/

namespace StyleValue

/-- The number of calls that are open at the end of the text. -/
def openCalls (text : String) : Nat :=
  (Draft.empty.extend (Lexeme.lex 0 text.toList)).calls.length

/-- Close the last item, which has to be an unclosed call, then the last item in
it, and so on for `depth` calls. Nothing else changes. -/
def closeSpine? : (depth : Nat) → List Node → Option (List Node)
  | 0, nodes => some nodes
  | depth + 1, nodes =>
      match nodes.getLast? with
      | some (.call name before args after false) =>
          (closeSpine? depth args).map fun args =>
            nodes.dropLast ++ [.call name before args after true]
      | _ => none

theorem closeSpine?_concat (depth : Nat) (nodes args : List Node)
    (name before after : String) :
    closeSpine? (depth + 1) (nodes ++ [.call name before args after false]) =
      (closeSpine? depth args).map fun args =>
        nodes ++ [.call name before args after true] := by
  rw [closeSpine?, List.getLast?_concat]
  simp only [List.dropLast_concat]

/-! Reading. -/

namespace Lexeme

/-- Neither a blank nor a comment, and not cut off by the end of the text. -/
def isSettled : Lexeme Char → Bool
  | .blank _ => false
  | .comment _ _ => false
  | lexeme => lexeme.isWhole

/-- Nothing but calls is left open at the end of the lexemes. -/
def EndsSettled (lexemes : List (Lexeme Char)) : Prop :=
  ∀ last ∈ lexemes.getLast?, last.isSettled = true

instance (lexemes : List (Lexeme Char)) : Decidable (EndsSettled lexemes) :=
  inferInstanceAs (Decidable (∀ last ∈ lexemes.getLast?, _))

theorem EndsSettled.tail {lexeme : Lexeme Char} {rest : List (Lexeme Char)}
    (settled : EndsSettled (lexeme :: rest)) : EndsSettled rest :=
  fun last isLast => settled last (List.mem_getLast?_cons isLast)

theorem Fits.of_closing {lexeme : Lexeme Char} {depth : Nat}
    (fits : lexeme.Fits (0 < depth) []) (settled : lexeme.isSettled = true)
    (inside : 0 < lexeme.depthAfter depth) (later : List Char) :
    lexeme.Fits (0 < depth) (')' :: later) := by
  have marks (nested : 0 < depth) : ∀ c ∈ (')' :: later).head?,
      endsWord (0 < depth) c = true ∧ c ≠ '(' ∧ c ≠ '*' := by
    rintro c ⟨⟩
    rw [decide_eq_true nested]
    decide
  cases lexeme with
  | blank | comment => contradiction
  | opening name before =>
      cases fits with
      | opening named blank _ structured =>
          refine .opening named blank ?_ fun isUrl => ?_
          · rintro c ⟨⟩
            rfl
          · obtain ⟨c, ⟨⟩, -⟩ := structured isUrl
  | closing =>
      cases fits with
      | closing nested => exact .closing nested
  | quoted | divider | url | word =>
      exact fits.of_isWhole settled rfl (marks inside)

theorem allFit_closings (depth : Nat) :
    AllFit depth (List.replicate depth .closing) := by
  induction depth with
  | zero => trivial
  | succ depth ih => exact ⟨.closing rfl, ih⟩

/-- The brackets change nothing before them, and each is read as what closes a
call. -/
theorem AllFit.append_closings {lexemes : List (Lexeme Char)} {depth : Nat}
    (fit : AllFit depth lexemes)
    (settled : EndsSettled lexemes)
    (inside : 0 < lexemes.foldl depthAfter depth) :
    AllFit depth (lexemes ++
      List.replicate (lexemes.foldl depthAfter depth) .closing) := by
  refine fit.append_of_fits ?_ (allFit_closings _)
  rintro init last rfl fits
  obtain ⟨more, isMore⟩ := Nat.exists_eq_add_of_lt inside
  rw [isMore]
  rw [List.foldl_concat] at inside
  exact fits.of_closing (settled last List.getLast?_concat) inside _

end Lexeme

theorem lex_append_closings {text : String} (inside : 0 < openCalls text)
    (settled : Lexeme.EndsSettled (Lexeme.lex 0 text.toList)) :
    Lexeme.lex 0 (text.toList ++ List.replicate (openCalls text) ')') =
      Lexeme.lex 0 text.toList ++ List.replicate (openCalls text) .closing := by
  rw [openCalls, length_calls_lex] at inside ⊢
  rw [Lexeme.lex_eq_iff]
  constructor
  · rw [List.flatMap_append, Lexeme.flatMap_text_lex, List.flatMap_replicate]
    simp [Lexeme.text]
  · exact (Lexeme.allFit_lex 0 text.toList).append_closings settled inside

/-! Building. -/

namespace Draft

theorem isSpace_head?_leave {draft : Draft} {gap : String}
    (inside : (draft.leave gap).calls ≠ []) :
    ∀ last ∈ (draft.leave gap).nodes.head?, last.isSpace = false := by
  obtain ⟨nodes, calls⟩ := draft
  cases calls with
  | nil => exact absurd rfl inside
  | cons call calls =>
      rintro last ⟨⟩
      rfl

/-- After a settled lexeme no space is left to be taken back. -/
theorem isSpace_head?_of_extends {draft result : Draft}
    {lexemes : List (Lexeme Char)} (further : Extends draft lexemes result)
    (settled : Lexeme.EndsSettled lexemes) (inside : result.calls ≠ [])
    (clear : lexemes = [] → ∀ last ∈ draft.nodes.head?, last.isSpace = false) :
    ∀ last ∈ result.nodes.head?, last.isSpace = false := by
  induction further with
  | done => exact clear rfl
  | blank _ ih | comment _ ih =>
      refine ih settled.tail inside ?_
      rintro rfl
      exact absurd (settled _ rfl) nofun
  | @closing draft result rest further ih =>
      refine ih settled.tail inside ?_
      rintro rfl
      cases further with
      | done => exact isSpace_head?_leave inside
  | @blankClosing draft result gap rest further ih =>
      refine ih settled.tail.tail inside ?_
      rintro rfl
      cases further with
      | done => exact isSpace_head?_leave inside
  | blankDivider _ ih =>
      refine ih settled.tail.tail inside ?_
      rintro - last ⟨⟩
      rfl
  | opening _ ih => exact ih settled.tail inside nofun
  | quoted _ ih | url _ ih | word _ ih | divider _ ih =>
      refine ih settled.tail inside ?_
      rintro - last ⟨⟩
      rfl

/-- One bracket for each open call does what the end of the text does, except
that the calls are closed. -/
theorem closeSpine?_closeAll (calls : List OpenCall) {depth : Nat}
    {nodes closed : List Node}
    (notSpace : ∀ last ∈ closed.head?, last.isSpace = false)
    (closes : closeSpine? depth nodes.reverse = some closed.reverse) :
    closeSpine? (calls.length + depth) (closeAll nodes calls) =
      some ((Draft.mk closed calls).extend
        (List.replicate calls.length .closing)).finish := by
  induction calls generalizing depth nodes closed with
  | nil => rwa [List.length_nil, Nat.zero_add]
  | cons call calls ih =>
      have isClosed : (Draft.mk closed (call :: calls)).leave "" =
          ⟨.call call.name call.before closed.reverse "" true :: call.outer,
            calls⟩ := by
        rw [leave, takeSpace_of_isSpace_eq_false notSpace]
        rfl
      rw [closeAll, List.length_cons, List.replicate_succ, extend, isClosed,
        Nat.add_assoc, Nat.add_comm 1]
      apply ih
      · rintro last ⟨⟩
        rfl
      · rw [List.reverse_cons, closeSpine?_concat, closes, List.reverse_cons]
        rfl

end Draft

/-- As many closing brackets as there are open calls, behind a text that ends in
no blank, comment or cut-off item, close those calls and change nothing else. -/
theorem closeSpine?_parse (text : String)
    (settled : Lexeme.EndsSettled (Lexeme.lex 0 text.toList)) :
    closeSpine? (openCalls text) (parse text) =
      some (parse (text ++
        String.ofList (List.replicate (openCalls text) ')'))) := by
  rcases Nat.eq_zero_or_pos (openCalls text) with isClosed | inside
  · rw [isClosed, List.replicate_zero, String.ofList_nil, String.append_empty]
    rfl
  have notBlank : ∀ gap,
      (Lexeme.lex 0 text.toList).getLast? ≠ some (.blank gap) :=
    fun gap isLast => absurd (settled _ isLast) nofun
  have notSpace := Draft.isSpace_head?_of_extends
    (Draft.extends_extend Draft.empty (Lexeme.lex 0 text.toList)) settled
    (List.ne_nil_of_length_pos inside) nofun
  rw [parse, parse, String.toList_append, String.toList_ofList,
    lex_append_closings inside settled, Draft.extend_append notBlank]
  have unchanged : closeSpine? 0 (Draft.empty.extend
      (Lexeme.lex 0 text.toList)).nodes.reverse = some _ := rfl
  exact Draft.closeSpine?_closeAll _ notSpace unchanged

theorem closeSpine?_parse_nested :
    Lexeme.EndsSettled (Lexeme.lex 0 "a( b, url( c ) d(/**/e".toList) ∧
      openCalls "a( b, url( c ) d(/**/e" = 2 ∧
      closeSpine? 2 (parse "a( b, url( c ) d(/**/e") =
        some (parse "a( b, url( c ) d(/**/e))") := by
  have settled : Lexeme.EndsSettled
      (Lexeme.lex 0 "a( b, url( c ) d(/**/e".toList) := by
    decide +kernel
  have depth : openCalls "a( b, url( c ) d(/**/e" = 2 := by
    decide +kernel
  have closes := closeSpine?_parse _ settled
  rw [depth] at closes
  exact ⟨settled, depth, closes⟩

end StyleValue
