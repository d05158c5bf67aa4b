import StyleValue.Proofs.Sequence.Likeness

/-! Drafts that differ in layout only. Reading keeps them so, and the tree that
comes out is, up to layout, the one that comes of reading each lexeme by itself,
blanks before a divider or a closing bracket among them. -/

namespace StyleValue

structure OpenCall.Alike (call later : OpenCall) : Prop where
  named : call.name = later.name
  outer : AllAlike .exact call.outer later.outer

namespace Draft

structure Alike (draft later : Draft) : Prop where
  nodes : AllAlike .exact draft.nodes later.nodes
  calls : List.Forall₂ OpenCall.Alike draft.calls later.calls

/-- Alike but for a space at the end of the innermost call. -/
structure AlikeInside (draft later : Draft) : Prop where
  nodes : AllAlike .exact (takeSpace draft.nodes).2 (takeSpace later.nodes).2
  calls : List.Forall₂ OpenCall.Alike draft.calls later.calls

variable {draft later : Draft}

theorem alike_refl (draft : Draft) : draft.Alike draft :=
  ⟨allAlike_refl draft.nodes, List.forall₂_same.mpr fun call _ =>
    ⟨rfl, allAlike_refl call.outer⟩⟩

/-! Steps. -/

theorem Alike.push (alike : draft.Alike later) {node laterNode : Node}
    (same : node.Alike .exact laterNode) :
    (draft.push node).Alike (later.push laterNode) :=
  ⟨.cons same alike.nodes, alike.calls⟩

theorem Alike.enter (alike : draft.Alike later)
    (name before laterBefore : String) :
    (draft.enter name before).Alike (later.enter name laterBefore) :=
  ⟨.nil, .cons ⟨rfl, alike.nodes⟩ alike.calls⟩

theorem Alike.addBlank (alike : draft.Alike later) {gap : String}
    (blank : IsBlankText gap) :
    (draft.addBlank gap).Alike (later.addBlank gap) := by
  obtain ⟨nodes, calls⟩ := draft
  obtain ⟨laterNodes, laterCalls⟩ := later
  obtain ⟨nodesAlike, callsAlike⟩ := alike
  have gapAlike := Node.alike_refl (.space gap)
  cases nodesAlike with
  | nil => exact ⟨.cons gapAlike .nil, callsAlike⟩
  | cons last earlier =>
      cases last with
      | divider => exact ⟨.cons .divider earlier, callsAlike⟩
      | space same =>
          refine ⟨.cons (.space ?_) earlier, callsAlike⟩
          rcases same with rfl | ⟨textBlank, laterBlank⟩
          · exact .inl rfl
          · exact .inr ⟨textBlank.append blank, laterBlank.append blank⟩
      | word same =>
          exact ⟨.cons gapAlike (.cons (.word same) earlier), callsAlike⟩
      | quoted => exact ⟨.cons gapAlike (.cons .quoted earlier), callsAlike⟩
      | call named inside =>
          exact ⟨.cons gapAlike (.cons (.call named inside) earlier),
            callsAlike⟩

theorem Alike.inside (alike : draft.Alike later) : draft.AlikeInside later := by
  refine ⟨?_, alike.calls⟩
  obtain ⟨nodesAlike, -⟩ := alike
  generalize draft.nodes = nodes at nodesAlike
  generalize later.nodes = laterNodes at nodesAlike
  cases nodesAlike with
  | nil => exact .nil
  | cons last earlier =>
      cases last with
      | space => exact earlier
      | word same => exact .cons (.word same) earlier
      | quoted => exact .cons .quoted earlier
      | divider => exact .cons .divider earlier
      | call named inside => exact .cons (.call named inside) earlier

/-- Blanks join what stands before them, or make a space at the end. -/
theorem alikeInside_addBlank (draft : Draft) (gap : String) :
    (draft.addBlank gap).AlikeInside draft := by
  obtain ⟨nodes, calls⟩ := draft
  refine ⟨?_, by simpa using (alike_refl ⟨nodes, calls⟩).calls⟩
  cases nodes with
  | nil => exact .nil
  | cons last earlier =>
      have earlierAlike := allAlike_refl earlier
      cases last with
      | space => exact earlierAlike
      | divider => exact .cons .divider earlierAlike
      | word | quoted | call => exact .cons (Node.alike_refl _) earlierAlike

theorem Alike.inside_addBlank (alike : draft.Alike later) (gap : String) :
    draft.AlikeInside (later.addBlank gap) := by
  have joined := alikeInside_addBlank later gap
  exact ⟨alike.inside.nodes.trans joined.nodes.symm, by simpa using alike.calls⟩

theorem AlikeInside.divide (alike : draft.AlikeInside later)
    (gap laterGap : String) (kind : Divider) :
    (draft.divide gap kind).Alike (later.divide laterGap kind) :=
  ⟨.cons .divider alike.nodes, alike.calls⟩

theorem AlikeInside.leave (alike : draft.AlikeInside later)
    (inside : 0 < draft.calls.length) (gap laterGap : String) :
    (draft.leave gap).Alike (later.leave laterGap) := by
  obtain ⟨nodes, calls⟩ := draft
  obtain ⟨laterNodes, laterCalls⟩ := later
  obtain ⟨nodesAlike, callsAlike⟩ := alike
  cases callsAlike with
  | nil => contradiction
  | cons callAlike outerAlike =>
      have argsAlike := List.rel_reverse nodesAlike
      exact ⟨.cons (.call callAlike.named argsAlike) callAlike.outer,
        outerAlike⟩

theorem Alike.leave (alike : draft.Alike later) (gap laterGap : String) :
    (draft.leave gap).Alike (later.leave laterGap) := by
  have inside := alike.inside
  obtain ⟨nodes, calls⟩ := draft
  obtain ⟨laterNodes, laterCalls⟩ := later
  cases alike.calls with
  | nil => exact alike
  | cons => exact inside.leave (Nat.zero_lt_succ _) gap laterGap

theorem allAlike_closeAll {nodes laterNodes : List Node}
    (nodesAlike : AllAlike .exact nodes laterNodes)
    {calls laterCalls : List OpenCall}
    (callsAlike : List.Forall₂ OpenCall.Alike calls laterCalls) :
    AllAlike .exact (closeAll nodes calls) (closeAll laterNodes laterCalls) := by
  induction callsAlike generalizing nodes laterNodes with
  | nil => exact List.rel_reverse nodesAlike
  | cons callAlike _ ih =>
      have argsAlike := List.rel_reverse nodesAlike
      exact ih (.cons (.call callAlike.named argsAlike) callAlike.outer)

theorem Alike.finish (alike : draft.Alike later) :
    AllAlike .exact draft.finish later.finish :=
  allAlike_closeAll alike.nodes alike.calls

/-! Runs. -/

/-- Read one lexeme, without a look at the next. -/
def add (draft : Draft) : Lexeme Char → Draft
  | .blank gap => draft.addBlank (String.ofList gap)
  | .quoted quote value closed =>
      draft.push (.quoted quote (String.ofList value) closed)
  | .comment _ _ => draft
  | .divider kind => draft.divide "" kind
  | .opening name before =>
      draft.enter (String.ofList name) (String.ofList before)
  | .url name before text after closed =>
      draft.push (address (String.ofList name) (String.ofList before)
        (String.ofList text) (String.ofList after) closed)
  | .closing => draft.leave ""
  | .word text => draft.push (.word (String.ofList text))

theorem Alike.add (alike : draft.Alike later) {nested : Bool}
    {rest : List Char} {lexeme : Lexeme Char}
    (fits : lexeme.Fits nested rest) :
    (draft.add lexeme).Alike (later.add lexeme) := by
  cases fits with
  | blank _ blank _ => exact alike.addBlank (isBlankText_ofList blank)
  | quoted => exact alike.push .quoted
  | comment => exact alike
  | divider => exact alike.inside.divide "" "" _
  | opening => exact alike.enter _ _ _
  | url => exact alike.push (Node.alike_refl _)
  | closing => exact alike.leave "" ""
  | word => exact alike.push (.word rfl)

theorem Alike.addAll {lexemes : List (Lexeme Char)} {depth : Nat}
    (fit : Lexeme.AllFit depth lexemes) (alike : draft.Alike later) :
    (lexemes.foldl Draft.add draft).Alike (lexemes.foldl Draft.add later) := by
  induction lexemes generalizing draft later depth with
  | nil => exact alike
  | cons lexeme rest ih => exact ih fit.2 (alike.add fit.1)

/-- Blanks before a divider or a closing bracket are kept in another place when
they are read with it, and that is all. -/
theorem Alike.of_extends {draft result later : Draft}
    {lexemes : List (Lexeme Char)} (further : Extends draft lexemes result)
    (fit : Lexeme.AllFit draft.calls.length lexemes)
    (alike : draft.Alike later) :
    result.Alike (lexemes.foldl Draft.add later) := by
  induction further generalizing later with
  | done => exact alike
  -- The blanks join what stands before them, or are taken back by the divider.
  | @blankDivider draft result gap kind rest _ ih =>
      obtain ⟨-, -, restFit⟩ := fit
      have inside := alike.inside_addBlank (String.ofList gap)
      exact ih restFit (inside.divide _ "" kind)
  | @blankClosing draft result gap rest _ ih =>
      obtain ⟨-, closes, restFit⟩ := fit
      cases closes with
      | closing nested =>
          have after : Lexeme.AllFit (draft.calls.length - 1) rest := restFit
          have inside := alike.inside_addBlank (String.ofList gap)
          exact ih (by simpa using after)
            (inside.leave (of_decide_eq_true nested) _ "")
  | @blank draft result gap rest _ ih =>
      have after : Lexeme.AllFit draft.calls.length rest := fit.2
      exact ih (by simpa using after) (alike.add fit.1)
  | @closing draft result rest _ ih =>
      have after : Lexeme.AllFit (draft.calls.length - 1) rest := fit.2
      exact ih (by simpa using after) (alike.add fit.1)
  | quoted _ ih | comment _ ih | divider _ ih | opening _ ih | url _ ih
  | word _ ih => exact ih fit.2 (alike.add fit.1)

end Draft

/-- Up to layout, the tree of a text is made of its lexemes one by one. -/
theorem parse_alike (text : String) :
    AllAlike .exact (parse text)
      ((Lexeme.lex 0 text.toList).foldl Draft.add Draft.empty).finish := by
  have fit : Lexeme.AllFit Draft.empty.calls.length
      (Lexeme.lex 0 text.toList) := Lexeme.allFit_lex 0 text.toList
  have further := Draft.extends_extend Draft.empty (Lexeme.lex 0 text.toList)
  exact (Draft.Alike.of_extends further fit (Draft.alike_refl _)).finish

end StyleValue
