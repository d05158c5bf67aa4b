import StyleValue.Proofs.Tree.Extension
import StyleValue.Proofs.Tree.Reading
import StyleValue.Tree.Node

/-! The text of a tree that is being read is the text that was read so far,
comments apart: each lexeme adds its own text at the end, wherever in the tree
the blanks around it are kept. -/

namespace StyleValue

@[simp] theorem render_nil : render [] = "" := by
  simp [render]

@[simp] theorem render_append (first second : List Node) :
    render (first ++ second) = render first ++ render second := by
  induction first with
  | nil => simp
  | cons node rest ih =>
      simp only [List.cons_append, render, ih, String.append_assoc]

@[simp] theorem render_singleton (node : Node) : render [node] = node.render := by
  simp [render]

def OpenCall.text (call : OpenCall) : String :=
  render call.outer.reverse ++ call.name ++ "(" ++ call.before

def Lexeme.keptText (lexemes : List (Lexeme Char)) : List Char :=
  (lexemes.filter fun lexeme => !lexeme.isComment).flatMap Lexeme.text

@[simp] theorem Lexeme.keptText_nil : keptText [] = [] := rfl

@[simp] theorem Lexeme.keptText_cons (lexeme : Lexeme Char)
    (rest : List (Lexeme Char)) :
    keptText (lexeme :: rest) =
      (if lexeme.isComment then [] else lexeme.text) ++ keptText rest := by
  simp only [keptText, List.filter_cons]
  cases lexeme.isComment <;> rfl

namespace Draft

def callsText : List OpenCall → String
  | [] => ""
  | call :: calls => callsText calls ++ call.text

/-- The text that was read, comments apart. -/
def text (draft : Draft) : String :=
  callsText draft.calls ++ render draft.nodes.reverse

theorem text_push (draft : Draft) (node : Node) :
    (draft.push node).text = draft.text ++ node.render := by
  simp [text, push, String.append_assoc]

theorem text_addBlank (draft : Draft) (gap : String) :
    (draft.addBlank gap).text = draft.text ++ gap := by
  obtain ⟨nodes, calls⟩ := draft
  unfold addBlank
  split
  next kind before after rest isDivider =>
    have nodesEq : nodes = .divider kind before after :: rest := isDivider
    simp [text, nodesEq, Node.render, String.append_assoc]
  next space rest isSpace =>
    have nodesEq : nodes = .space space :: rest := isSpace
    simp [text, nodesEq, Node.render, String.append_assoc]
  next => simp [text, Node.render, String.append_assoc]

theorem render_takeSpace (nodes : List Node) :
    render (takeSpace nodes).2.reverse ++ (takeSpace nodes).1 =
      render nodes.reverse := by
  unfold takeSpace
  split
  next => simp [Node.render]
  next => simp

theorem text_divide (draft : Draft) (gap : String) (kind : Divider) :
    (draft.divide gap kind).text =
      draft.text ++ gap ++ kind.toChar.toString := by
  simp only [text, divide, ← render_takeSpace draft.nodes, List.reverse_cons,
    render_append, render_singleton, Node.render, String.append_assoc,
    String.append_empty]

theorem text_enter (draft : Draft) (name before : String) :
    (draft.enter name before).text = draft.text ++ name ++ "(" ++ before := by
  simp [text, enter, callsText, OpenCall.text, String.append_assoc]

theorem text_leave {draft : Draft} (inside : 0 < draft.calls.length)
    (gap : String) : (draft.leave gap).text = draft.text ++ gap ++ ")" := by
  obtain ⟨nodes, calls⟩ := draft
  cases calls with
  | nil => simp at inside
  | cons call calls =>
      simp only [text, leave, callsText, ← render_takeSpace nodes]
      simp [OpenCall.text, Node.render, String.append_assoc]

theorem render_address (name before text after : String) (closed : Bool) :
    (address name before text after closed).render =
      name ++ "(" ++ before ++ text ++ after ++ (if closed then ")" else "") := by
  by_cases isEmpty : text = ""
  · simp [address, isEmpty, Node.render]
  · simp [address, isEmpty, Node.render]

theorem render_closeAll (nodes : List Node) (calls : List OpenCall) :
    render (closeAll nodes calls) = callsText calls ++ render nodes.reverse := by
  induction calls generalizing nodes with
  | nil => simp [closeAll, callsText]
  | cons call calls ih =>
      simp only [closeAll, ih, callsText]
      simp [OpenCall.text, Node.render, String.append_assoc]

theorem render_finish (draft : Draft) : render draft.finish = draft.text :=
  render_closeAll draft.nodes draft.calls

/-- What is read adds its own text at the end. Closing brackets do so because
each of them closes a call. -/
theorem text_of_extends {draft result : Draft} {lexemes : List (Lexeme Char)}
    (further : Extends draft lexemes result)
    (fit : Lexeme.AllFit draft.calls.length lexemes) :
    result.text.toList = draft.text.toList ++ Lexeme.keptText lexemes := by
  induction further with
  | done => simp
  | blankDivider _ ih =>
      obtain ⟨-, -, restFit⟩ := fit
      rw [ih restFit, text_divide]
      simp [Lexeme.text, Lexeme.isComment]
  | @blankClosing draft result gap rest _ ih =>
      obtain ⟨-, closes, restFit⟩ := fit
      cases closes with
      | closing inside =>
          have after : Lexeme.AllFit (draft.calls.length - 1) rest := restFit
          rw [ih (by simpa using after), text_leave (of_decide_eq_true inside)]
          simp [Lexeme.text, Lexeme.isComment]
  | @blank draft result gap rest _ ih =>
      have after : Lexeme.AllFit draft.calls.length rest := fit.2
      rw [ih (by simpa using after), text_addBlank]
      simp [Lexeme.text, Lexeme.isComment]
  | @quoted draft result quote value closed rest _ ih =>
      rw [ih fit.2, text_push]
      cases closed <;> simp [Lexeme.text, Lexeme.isComment, Node.render]
  | comment _ ih =>
      rw [ih fit.2]
      simp [Lexeme.isComment]
  | divider _ ih =>
      rw [ih fit.2, text_divide]
      simp [Lexeme.text, Lexeme.isComment]
  | opening _ ih =>
      rw [ih fit.2, text_enter]
      simp [Lexeme.text, Lexeme.isComment]
  | @url draft result name before text after closed rest _ ih =>
      rw [ih fit.2, text_push, render_address]
      cases closed <;> simp [Lexeme.text, Lexeme.isComment]
  | @closing draft result rest _ ih =>
      obtain ⟨closes, restFit⟩ := fit
      cases closes with
      | closing inside =>
          have after : Lexeme.AllFit (draft.calls.length - 1) rest := restFit
          rw [ih (by simpa using after), text_leave (of_decide_eq_true inside)]
          simp [Lexeme.text, Lexeme.isComment]
  | word _ ih =>
      rw [ih fit.2, text_push]
      simp [Lexeme.text, Lexeme.isComment, Node.render]

end Draft

theorem render_parse_toList (text : String) :
    (render (parse text)).toList =
      Lexeme.keptText (Lexeme.lex 0 text.toList) := by
  have fit : Lexeme.AllFit Draft.empty.calls.length
      (Lexeme.lex 0 text.toList) := Lexeme.allFit_lex 0 text.toList
  rw [parse, Draft.render_finish,
    Draft.text_of_extends (Draft.extends_extend _ _) fit]
  simp [Draft.text, Draft.empty, Draft.callsText]

theorem Lexeme.keptText_eq_flatMap_text {lexemes : List (Lexeme Char)}
    (noComment : ∀ lexeme ∈ lexemes, lexeme.isComment = false) :
    keptText lexemes = lexemes.flatMap Lexeme.text := by
  have kept : lexemes.filter (fun lexeme => !lexeme.isComment) = lexemes := by
    rw [List.filter_eq_self]
    intro lexeme member
    rw [noComment lexeme member, Bool.not_false]
  rw [keptText, kept]

theorem Lexeme.commentStart_infix {lexemes : List (Lexeme Char)}
    {lexeme : Lexeme Char} (member : lexeme ∈ lexemes)
    (isComment : lexeme.isComment = true) :
    ['/', '*'] <:+: lexemes.flatMap Lexeme.text := by
  obtain ⟨before, after, rfl⟩ := List.append_of_mem member
  cases lexeme with
  | comment body closed =>
      rw [List.flatMap_append, List.flatMap_cons]
      refine ⟨before.flatMap Lexeme.text,
        body ++ (if closed then ['*', '/'] else []) ++
          after.flatMap Lexeme.text, ?_⟩
      simp [Lexeme.text]
  | _ => contradiction

/-- Reading loses nothing. Each step takes its lexeme's own text, which is not
empty, off the front of what is left; the lexemes make up the whole text; and
the tree's text is theirs, comments apart. -/
theorem render_parse (text : String) :
    (∀ nested symbol rest,
      (Lexeme.read nested symbol rest).1.text ++
          (Lexeme.read nested symbol rest).2 = symbol :: rest ∧
        (Lexeme.read nested symbol rest).1.text ≠ []) ∧
      (Lexeme.lex 0 text.toList).flatMap Lexeme.text = text.toList ∧
      (render (parse text)).toList =
        ((Lexeme.lex 0 text.toList).filter fun lexeme =>
          !lexeme.isComment).flatMap Lexeme.text ∧
      (¬ ['/', '*'] <:+: text.toList → render (parse text) = text) := by
  have whole := Lexeme.flatMap_text_lex 0 text.toList
  refine ⟨?_, whole, render_parse_toList text, ?_⟩
  · intro nested symbol rest
    have isRead := Lexeme.isRead_read nested symbol rest
    exact ⟨isRead.text_eq, isRead.fits.text_ne_nil⟩
  · intro noMark
    have noComment : ∀ lexeme ∈ Lexeme.lex 0 text.toList,
        lexeme.isComment = false := by
      intro lexeme member
      cases isComment : lexeme.isComment with
      | false => rfl
      | true =>
          have mark := Lexeme.commentStart_infix member isComment
          rw [whole] at mark
          exact absurd mark noMark
    apply String.toList_inj.mp
    rw [render_parse_toList, Lexeme.keptText_eq_flatMap_text noComment, whole]

theorem render_parse_unclosed :
    ¬ ['/', '*'] <:+: "a) url( b\\, c /d( 'e".toList ∧
      render (parse "a) url( b\\, c /d( 'e") = "a) url( b\\, c /d( 'e" := by
  have noMark : ¬ ['/', '*'] <:+: "a) url( b\\, c /d( 'e".toList := by
    decide +kernel
  exact ⟨noMark, (render_parse "a) url( b\\, c /d( 'e").2.2.2 noMark⟩

end StyleValue
