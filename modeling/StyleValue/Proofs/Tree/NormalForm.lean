import Mathlib.Data.List.Chain
import StyleValue.Proofs.Tree.Extension
import StyleValue.Proofs.Tree.Reading

/-! Every tree that is read is in normal form, at every depth: blanks stand
next to a divider or to another blank only as a part of it, and what is not
closed is at the end of the text. -/

namespace StyleValue

def IsBlankText (text : String) : Prop :=
  Lexeme.AllBlank text.toList

instance (text : String) : Decidable (IsBlankText text) :=
  List.decidableBAll _ text.toList

theorem isBlankText_empty : IsBlankText "" := nofun

theorem isBlankText_ofList {text : List Char} (blank : Lexeme.AllBlank text) :
    IsBlankText (String.ofList text) := by
  rwa [IsBlankText, String.toList_ofList]

theorem IsBlankText.append {first second : String} (blank : IsBlankText first)
    (blank' : IsBlankText second) : IsBlankText (first ++ second) := by
  rw [IsBlankText, String.toList_append]
  exact Lexeme.AllBlank.append blank blank'

namespace Node

def isClosed : Node → Bool
  | .quoted _ _ closed => closed
  | .call _ _ _ _ closed => closed
  | _ => true

/-- Neighbours of which one is a space: the other is neither a space nor a
divider. -/
def IsApart (first second : Node) : Prop :=
  (first.isSpace = true → second.isSpace = false ∧ second.isDivider = false) ∧
    (second.isSpace = true → first.isDivider = false)

/-- No text is missing, and blanks are all that is kept as blanks. A closed
call ends in no space and holds nothing that is not closed. -/
def IsTidy : Node → Prop
  | .word text => text ≠ ""
  | .space text => text ≠ "" ∧ IsBlankText text
  | .quoted _ _ _ => True
  | .divider _ before after => IsBlankText before ∧ IsBlankText after
  | .call _ before args after closed =>
      IsBlankText before ∧ IsBlankText after ∧
        (closed = true →
          (∀ last ∈ args.getLast?, last.isSpace = false) ∧
            ∀ arg ∈ args, arg.isClosed = true)

end Node

/-- A sequence in normal form, its calls' arguments apart. -/
structure IsNormal (nodes : List Node) : Prop where
  apart : nodes.IsChain Node.IsApart
  tidy : ∀ node ∈ nodes, node.IsTidy
  unclosed_last : ∀ node ∈ nodes.dropLast, node.isClosed = true

/-- The sequence itself, or the arguments of a call at any depth in it. -/
inductive IsWithin (inner : List Node) : List Node → Prop
  | whole : IsWithin inner inner
  | inside {nodes args : List Node} {node : Node} (member : node ∈ nodes)
      (isCall : node.args? = some args) (within : IsWithin inner args) :
      IsWithin inner nodes

theorem IsWithin.trans {inner middle outer : List Node}
    (within : IsWithin middle outer) (inside : IsWithin inner middle) :
    IsWithin inner outer := by
  induction within with
  | whole => exact inside
  | inside member isCall _ ih => exact .inside member isCall ih

def AtEveryDepth (property : List Node → Prop) (nodes : List Node) : Prop :=
  ∀ inner, IsWithin inner nodes → property inner

theorem atEveryDepth_iff {property : List Node → Prop} {nodes : List Node} :
    AtEveryDepth property nodes ↔
      property nodes ∧ ∀ node ∈ nodes, ∀ args, node.args? = some args →
        AtEveryDepth property args := by
  constructor
  · intro every
    exact ⟨every nodes .whole, fun node member args isCall inner within =>
      every inner (.inside member isCall within)⟩
  · rintro ⟨whole, inside⟩ inner within
    cases within with
    | whole => exact whole
    | inside member isCall within =>
        exact inside _ member _ isCall inner within

theorem AtEveryDepth.args {property : List Node → Prop} {nodes args : List Node}
    {node : Node} (every : AtEveryDepth property nodes) (member : node ∈ nodes)
    (isCall : node.args? = some args) : AtEveryDepth property args :=
  (atEveryDepth_iff.mp every).2 node member args isCall

theorem AtEveryDepth.of_isWithin {property : List Node → Prop}
    {inner nodes : List Node} (every : AtEveryDepth property nodes)
    (within : IsWithin inner nodes) : AtEveryDepth property inner :=
  fun deeper inside => every deeper (within.trans inside)

theorem closed_args {nodes args : List Node} {node : Node}
    (normal : AtEveryDepth IsNormal nodes) (member : node ∈ nodes)
    (isCall : node.args? = some args) (closed : node.isClosed = true) :
    ∀ arg ∈ args, arg.isClosed = true := by
  have isTidy := (normal nodes .whole).tidy node member
  cases node with
  | call name before found after ends =>
      cases isCall
      exact (isTidy.2.2 closed).2
  | word | space | quoted | divider => contradiction

theorem atEveryDepth_closed {nodes : List Node}
    (normal : AtEveryDepth IsNormal nodes)
    (closed : ∀ node ∈ nodes, node.isClosed = true) :
    AtEveryDepth (fun inner => ∀ node ∈ inner, node.isClosed = true) nodes := by
  intro inner within
  induction within with
  | whole => exact closed
  | @inside nodes args node member isCall within ih =>
      apply ih (normal.args member isCall)
      exact closed_args normal member isCall (closed node member)

/-! Sequences that are being read, latest item first. -/

def Node.IsSound (node : Node) : Prop :=
  node.IsTidy ∧ ∀ args, node.args? = some args → AtEveryDepth IsNormal args

/-- Items that further items may follow: all of them are closed. -/
def IsOpenStack : List Node → Prop
  | [] => True
  | node :: earlier =>
      node.IsSound ∧ node.isClosed = true ∧
        (∀ last ∈ earlier.head?, last.IsApart node) ∧ IsOpenStack earlier

/-- Items of which the latest may be left open. -/
def IsStack : List Node → Prop
  | [] => True
  | node :: earlier =>
      node.IsSound ∧ (∀ last ∈ earlier.head?, last.IsApart node) ∧
        IsOpenStack earlier

theorem IsOpenStack.isStack {nodes : List Node} (stack : IsOpenStack nodes) :
    IsStack nodes := by
  cases nodes with
  | nil => trivial
  | cons node earlier => exact ⟨stack.1, stack.2.2⟩

theorem IsOpenStack.isClosed {nodes : List Node} (stack : IsOpenStack nodes) :
    ∀ node ∈ nodes, node.isClosed = true := by
  induction nodes with
  | nil => nofun
  | cons node earlier ih =>
      intro found member
      rcases List.mem_cons.mp member with rfl | inEarlier
      · exact stack.2.1
      · exact ih stack.2.2.2 found inEarlier

theorem IsStack.isSound {nodes : List Node} (stack : IsStack nodes) :
    ∀ node ∈ nodes, node.IsSound := by
  induction nodes with
  | nil => nofun
  | cons node earlier ih =>
      intro found member
      rcases List.mem_cons.mp member with rfl | inEarlier
      · exact stack.1
      · exact ih stack.2.2.isStack found inEarlier

theorem IsStack.isChain_reverse {nodes : List Node} (stack : IsStack nodes) :
    nodes.reverse.IsChain Node.IsApart := by
  rw [List.isChain_reverse]
  induction nodes with
  | nil => exact .nil
  | cons node earlier ih =>
      rw [List.isChain_cons]
      exact ⟨stack.2.1, ih stack.2.2.isStack⟩

theorem IsStack.atEveryDepth {nodes : List Node} (stack : IsStack nodes) :
    AtEveryDepth IsNormal nodes.reverse := by
  rw [atEveryDepth_iff]
  refine ⟨⟨stack.isChain_reverse, ?_, ?_⟩, ?_⟩
  · intro node member
    exact (stack.isSound node (List.mem_reverse.mp member)).1
  · intro node member
    cases nodes with
    | nil => simp at member
    | cons latest earlier =>
        rw [List.reverse_cons, List.dropLast_concat, List.mem_reverse] at member
        exact stack.2.2.isClosed node member
  · intro node member
    exact (stack.isSound node (List.mem_reverse.mp member)).2

theorem isOpenStack_takeSpace {nodes : List Node} (stack : IsOpenStack nodes) :
    IsOpenStack (Draft.takeSpace nodes).2 ∧
      IsBlankText (Draft.takeSpace nodes).1 ∧
      ∀ last ∈ (Draft.takeSpace nodes).2.head?, last.isSpace = false := by
  cases nodes with
  | nil => exact ⟨trivial, isBlankText_empty, nofun⟩
  | cons node earlier =>
      cases node with
      | space text =>
          obtain ⟨sound, -, apart, earlierStack⟩ := stack
          refine ⟨earlierStack, sound.1.2, ?_⟩
          intro last isLast
          cases isSpace : last.isSpace with
          | false => rfl
          | true => exact absurd ((apart last isLast).1 isSpace).1 nofun
      | word | quoted | divider | call =>
          refine ⟨stack, isBlankText_empty, ?_⟩
          intro last isLast
          cases isLast
          rfl

namespace Draft

/-- All that has been read is closed and in normal form, in each open call. -/
structure IsClean (draft : Draft) : Prop where
  nodes : IsOpenStack draft.nodes
  calls : ∀ call ∈ draft.calls,
    IsBlankText call.before ∧ IsOpenStack call.outer

theorem isClean_empty : empty.IsClean := ⟨trivial, nofun⟩

theorem isApart_of_plain {node : Node} (notSpace : node.isSpace = false)
    (notDivider : node.isDivider = false) (last : Node) : last.IsApart node :=
  ⟨fun _ => ⟨notSpace, notDivider⟩, fun isSpace => by
    rw [notSpace] at isSpace
    contradiction⟩

theorem IsClean.push {draft : Draft} (clean : draft.IsClean) {node : Node}
    (sound : node.IsSound) (closed : node.isClosed = true)
    (notSpace : node.isSpace = false) (notDivider : node.isDivider = false) :
    (draft.push node).IsClean :=
  ⟨⟨sound, closed, fun last _ => isApart_of_plain notSpace notDivider last,
    clean.nodes⟩, clean.calls⟩

theorem IsClean.addBlank {draft : Draft} (clean : draft.IsClean) {gap : String}
    (nonempty : gap ≠ "") (blank : IsBlankText gap) :
    (draft.addBlank gap).IsClean := by
  obtain ⟨nodes, calls⟩ := draft
  obtain ⟨stack, callsClean⟩ := clean
  cases nodes with
  | nil =>
      exact ⟨⟨⟨⟨nonempty, blank⟩, nofun⟩, rfl, nofun, trivial⟩, callsClean⟩
  | cons node earlier =>
      cases node with
      | divider kind before after =>
          obtain ⟨sound, -, apart, earlierStack⟩ := stack
          exact ⟨⟨⟨⟨sound.1.1, sound.1.2.append blank⟩, nofun⟩, rfl, apart,
            earlierStack⟩, callsClean⟩
      | space text =>
          obtain ⟨sound, -, apart, earlierStack⟩ := stack
          have joined : text ++ gap ≠ "" := by
            intro isEmpty
            exact nonempty (String.append_eq_empty_iff.mp isEmpty).2
          exact ⟨⟨⟨⟨joined, sound.1.2.append blank⟩, nofun⟩, rfl, apart,
            earlierStack⟩, callsClean⟩
      | word | quoted | call =>
          refine ⟨⟨⟨⟨nonempty, blank⟩, nofun⟩, rfl, ?_, stack⟩, callsClean⟩
          intro last isLast
          cases isLast
          exact ⟨nofun, fun _ => rfl⟩

theorem IsClean.divide {draft : Draft} (clean : draft.IsClean) {gap : String}
    (blank : IsBlankText gap) (kind : Divider) :
    (draft.divide gap kind).IsClean := by
  obtain ⟨taken, takenBlank, notSpace⟩ := isOpenStack_takeSpace clean.nodes
  refine ⟨⟨⟨⟨takenBlank.append blank, isBlankText_empty⟩, nofun⟩, rfl, ?_,
    taken⟩, clean.calls⟩
  intro last isLast
  refine ⟨fun isSpace => ?_, nofun⟩
  rw [notSpace last isLast] at isSpace
  contradiction

theorem IsClean.enter {draft : Draft} (clean : draft.IsClean) (name : String)
    {before : String} (blank : IsBlankText before) :
    (draft.enter name before).IsClean := by
  refine ⟨trivial, ?_⟩
  intro call member
  rcases List.mem_cons.mp member with rfl | outer
  · exact ⟨blank, clean.nodes⟩
  · exact clean.calls call outer

theorem IsClean.leave {draft : Draft} (clean : draft.IsClean) {gap : String}
    (blank : IsBlankText gap) : (draft.leave gap).IsClean := by
  obtain ⟨nodes, calls⟩ := draft
  cases calls with
  | nil => exact clean
  | cons call calls =>
      obtain ⟨taken, takenBlank, notSpace⟩ := isOpenStack_takeSpace clean.nodes
      obtain ⟨beforeBlank, outer⟩ := clean.calls call (by simp)
      have isTidy : (Node.call call.name call.before
          (takeSpace nodes).2.reverse ((takeSpace nodes).1 ++ gap) true).IsTidy := by
        refine ⟨beforeBlank, takenBlank.append blank, fun _ => ⟨?_, ?_⟩⟩
        · rw [List.getLast?_reverse]
          exact notSpace
        · intro arg member
          exact taken.isClosed arg (List.mem_reverse.mp member)
      refine ⟨⟨⟨isTidy, ?_⟩, rfl,
        fun last _ => isApart_of_plain rfl rfl last, outer⟩, ?_⟩
      · intro args isCall
        cases isCall
        exact taken.isStack.atEveryDepth
      · intro outerCall member
        exact clean.calls outerCall (List.mem_cons_of_mem call member)

theorem isSound_address {before after : String} (name text : String)
    (closed : Bool) (blankBefore : IsBlankText before)
    (blankAfter : IsBlankText after) :
    (address name before text after closed).IsSound := by
  by_cases isEmpty : text = ""
  · subst isEmpty
    refine ⟨⟨blankBefore, blankAfter, fun _ => ⟨nofun, nofun⟩⟩, ?_⟩
    intro args isCall
    cases isCall
    have stack : IsStack [] := trivial
    exact stack.atEveryDepth
  · have isArg : (if text.isEmpty = true then [] else [Node.word text]) =
        [Node.word text] := by simp [isEmpty]
    rw [address, isArg]
    refine ⟨⟨blankBefore, blankAfter, fun _ => ⟨?_, ?_⟩⟩, ?_⟩
    · intro last isLast
      cases isLast
      rfl
    · intro arg member
      rw [List.mem_singleton.mp member]
      rfl
    · intro args isCall
      cases isCall
      have stack : IsStack [Node.word text] :=
        ⟨⟨isEmpty, nofun⟩, nofun, trivial⟩
      exact stack.atEveryDepth

theorem atEveryDepth_closeAll {nodes : List Node} {calls : List OpenCall}
    (stack : IsStack nodes)
    (callsClean : ∀ call ∈ calls,
      IsBlankText call.before ∧ IsOpenStack call.outer) :
    AtEveryDepth IsNormal (closeAll nodes calls) := by
  induction calls generalizing nodes with
  | nil => exact stack.atEveryDepth
  | cons call calls ih =>
      obtain ⟨beforeBlank, outer⟩ := callsClean call (by simp)
      apply ih
      · refine ⟨⟨⟨beforeBlank, isBlankText_empty, nofun⟩, ?_⟩,
          fun last _ => isApart_of_plain rfl rfl last, outer⟩
        intro args isCall
        cases isCall
        exact stack.atEveryDepth
      · intro outerCall member
        exact callsClean outerCall (List.mem_cons_of_mem call member)

theorem atEveryDepth_finish_push {draft : Draft} (clean : draft.IsClean)
    {node : Node} (sound : node.IsSound) (notSpace : node.isSpace = false)
    (notDivider : node.isDivider = false) :
    AtEveryDepth IsNormal (draft.push node).finish :=
  atEveryDepth_closeAll
    ⟨sound, fun last _ => isApart_of_plain notSpace notDivider last,
      clean.nodes⟩
    clean.calls

theorem atEveryDepth_finish_of_extends {draft result : Draft} {depth : Nat}
    {lexemes : List (Lexeme Char)} (further : Extends draft lexemes result)
    (clean : draft.IsClean) (fit : Lexeme.AllFit depth lexemes) :
    AtEveryDepth IsNormal result.finish := by
  induction further generalizing depth with
  | done => exact atEveryDepth_closeAll clean.nodes.isStack clean.calls
  | @blankDivider draft result gap kind rest _ ih =>
      obtain ⟨fits, -, restFit⟩ := fit
      cases fits with
      | blank nonempty blank stops =>
          exact ih (clean.divide (isBlankText_ofList blank) kind) restFit
  | blankClosing _ ih =>
      obtain ⟨fits, -, restFit⟩ := fit
      cases fits with
      | blank nonempty blank stops =>
          exact ih (clean.leave (isBlankText_ofList blank)) restFit
  | @blank draft result gap rest _ ih =>
      obtain ⟨fits, restFit⟩ := fit
      cases fits with
      | blank nonempty blank stops =>
          have someText : String.ofList gap ≠ "" := by
            rwa [ne_eq, String.ofList_eq_empty_iff]
          exact ih (clean.addBlank someText (isBlankText_ofList blank)) restFit
  | @quoted draft result quote value closed rest further ih =>
      obtain ⟨fits, restFit⟩ := fit
      have sound : (Node.quoted quote (String.ofList value) closed).IsSound :=
        ⟨trivial, nofun⟩
      cases closed with
      | true => exact ih (clean.push sound rfl rfl rfl) restFit
      | false =>
          cases fits with
          | quoted isQuote delimited =>
              rw [restFit.eq_nil (delimited.ends rfl)] at further
              cases further
              exact atEveryDepth_finish_push clean sound rfl rfl
  | comment _ ih => exact ih clean fit.2
  | @divider draft result kind rest _ ih =>
      exact ih (clean.divide isBlankText_empty kind) fit.2
  | opening _ ih =>
      obtain ⟨fits, restFit⟩ := fit
      cases fits with
      | opening named blank stops structured =>
          exact ih (clean.enter _ (isBlankText_ofList blank)) restFit
  | @url draft result name before text after closed rest further ih =>
      obtain ⟨fits, restFit⟩ := fit
      cases fits with
      | url named isUrl blankBefore blankAfter starts stops delimited =>
          have sound := isSound_address (String.ofList name)
            (String.ofList text) closed (isBlankText_ofList blankBefore)
            (isBlankText_ofList blankAfter)
          cases closed with
          | true => exact ih (clean.push sound rfl rfl rfl) restFit
          | false =>
              rw [restFit.eq_nil (delimited.ends rfl)] at further
              cases further
              exact atEveryDepth_finish_push clean sound rfl rfl
  | closing _ ih => exact ih (clean.leave isBlankText_empty) fit.2
  | @word draft result text rest _ ih =>
      obtain ⟨fits, restFit⟩ := fit
      cases fits with
      | word nonempty scan notCall =>
          have sound : (Node.word (String.ofList text)).IsSound := by
            refine ⟨?_, nofun⟩
            rwa [Node.IsTidy, ne_eq, String.ofList_eq_empty_iff]
          exact ih (clean.push sound rfl rfl rfl) restFit

end Draft

theorem atEveryDepth_isNormal_parse (text : String) :
    AtEveryDepth IsNormal (parse text) :=
  Draft.atEveryDepth_finish_of_extends
    (Draft.extends_extend Draft.empty (Lexeme.lex 0 text.toList))
    Draft.isClean_empty (Lexeme.allFit_lex 0 text.toList)

/-- Whatever the text, the tree that is read from it is in normal form at every
depth, and a closed call holds nothing that is not closed, however deep. -/
theorem parse_isNormal (text : String) :
    AtEveryDepth
      (fun nodes => IsNormal nodes ∧
        ∀ name before args after, .call name before args after true ∈ nodes →
          AtEveryDepth (fun inner => ∀ node ∈ inner, node.isClosed = true) args)
      (parse text) := by
  intro nodes within
  have normal := (atEveryDepth_isNormal_parse text).of_isWithin within
  refine ⟨normal nodes .whole, ?_⟩
  intro name before args after member
  exact atEveryDepth_closed (normal.args member rfl)
    (closed_args normal member rfl rfl)

end StyleValue
