import StyleValue.Proofs.Tree.Canonical

/-! In every tree that is read, the raw calls hold addresses. A call to `url`
that is read item by item starts with a quoted text, and that is known before
its first item is read: a quote follows the bracket. -/

namespace StyleValue

open Lexeme

/-! What follows the bracket. -/

def opensQuoted : List (Lexeme Char) → Bool
  | .quoted _ _ _ :: _ => true
  | _ => false

theorem not_quote_of_isWordScan {nested : Bool} {name rest : List Char}
    (scan : IsWordScan nested false name rest) :
    ∀ c ∈ name.head?, Symbol.isQuote c = false := by
  cases name with
  | nil => nofun
  | cons first name =>
      intro c isHead
      cases isHead
      have goesOn := (isWordScan_cons_iff.mp scan).1
      exact (endsWord_eq_false_iff.mp goesOn).2.1

theorem not_quote_of_fits {nested : Bool} {rest : List Char}
    {lexeme : Lexeme Char} (fits : lexeme.Fits nested rest)
    (notQuoted : opensQuoted [lexeme] = false) :
    ∀ c ∈ lexeme.text.head?, Symbol.isQuote c = false := by
  intro c isHead
  cases fits with
  | quoted => contradiction
  | blank nonempty blank =>
      cases isQuote : Symbol.isQuote c with
      | false => rfl
      | true =>
          have isBlank := blank c (List.mem_of_mem_head? isHead)
          rw [(endsWord_of_quote nested isQuote).2.2.2] at isBlank
          contradiction
  | comment | closing =>
      cases isHead
      decide
  | @divider kind =>
      cases isHead
      cases kind <;> decide
  | @opening name before named =>
      cases name with
      | nil =>
          cases isHead
          decide
      | cons first name => exact not_quote_of_isWordScan named c isHead
  | @url name before address after closed named =>
      cases name with
      | nil =>
          cases isHead
          decide
      | cons first name => exact not_quote_of_isWordScan named c isHead
  | word nonempty scan => exact not_quote_of_isWordScan scan c isHead

theorem opensQuoted_of_allFit {depth : Nat} {lexemes : List (Lexeme Char)}
    (fit : AllFit depth lexemes) {c : Char}
    (isHead : c ∈ (lexemes.flatMap text).head?)
    (isQuote : Symbol.isQuote c = true) : opensQuoted lexemes = true := by
  cases lexemes with
  | nil => contradiction
  | cons lexeme rest =>
      cases opens : opensQuoted [lexeme] with
      | true =>
          cases lexeme with
          | quoted => rfl
          | _ => contradiction
      | false =>
          have lexemeHead : c ∈ lexeme.text.head? := by
            rw [List.flatMap_cons, List.head?_append_of_ne_nil _
              fit.1.text_ne_nil] at isHead
            exact isHead
          rw [not_quote_of_fits fit.1 opens c lexemeHead] at isQuote
          contradiction

theorem isAddress_of_fits {nested : Bool}
    {rest name before address after : List Char}
    (fits : Fits nested rest (.url name before address after true)) :
    IsAddress (String.ofList after)
      (if (String.ofList address).isEmpty then []
        else [.word (String.ofList address)]) := by
  cases fits with
  | url named isUrl blankBefore blankAfter starts stops delimited =>
      cases address with
      | nil =>
          cases after with
          | nil => rfl
          | cons c after =>
              have notBlank := (starts c rfl).1
              rw [blankAfter c List.mem_cons_self] at notBlank
              exact absurd notBlank nofun
      | cons first address =>
          have clear := delimited.clear
          rw [hasUnprotected_append, Bool.or_eq_false_iff] at clear
          rw [if_neg (by simp)]
          simp only [IsAddress, String.toList_ofList]
          refine ⟨by simp, starts, stops, clear.1, ?_⟩
          intro noAfter
          rw [String.ofList_eq_empty_iff] at noAfter
          subst after
          simpa using delimited.closes rfl

/-! Sequences of items. -/

theorem holdAddresses_nil : AtEveryDepth HoldAddresses [] := by
  rw [atEveryDepth_iff]
  exact ⟨nofun, nofun⟩

theorem holdAddresses_cons {node : Node} {nodes : List Node}
    (first : AtEveryDepth HoldAddresses [node])
    (rest : AtEveryDepth HoldAddresses nodes) :
    AtEveryDepth HoldAddresses (node :: nodes) := by
  rw [atEveryDepth_iff] at first rest ⊢
  constructor
  · intro name before args after member
    rcases List.mem_cons.mp member with isFirst | inRest
    · exact first.1 name before args after (List.mem_singleton.mpr isFirst)
    · exact rest.1 name before args after inRest
  · intro found member
    rcases List.mem_cons.mp member with isFirst | inRest
    · exact first.2 found (List.mem_singleton.mpr isFirst)
    · exact rest.2 found inRest

theorem holdAddresses_plain {node : Node} (notCall : node.args? = none) :
    AtEveryDepth HoldAddresses [node] := by
  rw [atEveryDepth_iff]
  constructor
  · intro name before args after member
    rw [← List.mem_singleton.mp member] at notCall
    contradiction
  · intro found member args isCall
    rw [List.mem_singleton.mp member, notCall] at isCall
    contradiction

theorem holdAddresses_call {name before after : String} {args : List Node}
    {closed : Bool}
    (own : closed = true → isRawCall name args = true → IsAddress after args)
    (deeper : AtEveryDepth HoldAddresses args) :
    AtEveryDepth HoldAddresses [.call name before args after closed] := by
  rw [atEveryDepth_iff]
  constructor
  · intro name' before' args' after' member
    cases List.mem_singleton.mp member
    exact own rfl
  · intro found member args' isCall
    rw [List.mem_singleton.mp member] at isCall
    cases isCall
    exact deeper

/-- The first of items that stand latest first. -/
def StartsQuoted (items : List Node) : Prop :=
  ∃ first ∈ items.getLast?, first.isQuoted = true

theorem StartsQuoted.cons {items : List Node} (starts : StartsQuoted items)
    (node : Node) : StartsQuoted (node :: items) := by
  obtain ⟨first, isFirst, isQuoted⟩ := starts
  refine ⟨first, ?_, isQuoted⟩
  rw [List.getLast?_cons, Option.mem_def.mp isFirst]
  rfl

theorem StartsQuoted.tail {node : Node} {items : List Node}
    (starts : StartsQuoted (node :: items))
    (notQuoted : node.isQuoted = false) : StartsQuoted items := by
  obtain ⟨first, isFirst, isQuoted⟩ := starts
  cases items with
  | nil =>
      have isNode : node = first := by simpa using isFirst
      rw [← isNode, notQuoted] at isQuoted
      contradiction
  | cons next items =>
      rw [List.getLast?_cons_cons] at isFirst
      exact ⟨first, isFirst, isQuoted⟩

theorem StartsQuoted.takeSpace {items : List Node}
    (starts : StartsQuoted items) : StartsQuoted (Draft.takeSpace items).2 := by
  unfold Draft.takeSpace
  split
  next => exact starts.tail rfl
  next => exact starts

namespace Draft

/-- The items of each open call to `url` start with a quoted text. -/
def StartQuoted : List Node → List OpenCall → Prop
  | _, [] => True
  | items, call :: calls =>
      (lowerCase call.name = "url" → StartsQuoted items) ∧
        StartQuoted call.outer calls

theorem StartQuoted.imp {items later : List Node} {calls : List OpenCall}
    (start : StartQuoted items calls)
    (keeps : StartsQuoted items → StartsQuoted later) :
    StartQuoted later calls := by
  cases calls with
  | nil => trivial
  | cons call calls => exact ⟨fun isUrl => keeps (start.1 isUrl), start.2⟩

structure HasAddresses (draft : Draft) : Prop where
  nodes : AtEveryDepth HoldAddresses draft.nodes
  calls : ∀ call ∈ draft.calls, AtEveryDepth HoldAddresses call.outer

theorem HasAddresses.push {draft : Draft} (addresses : draft.HasAddresses)
    {node : Node} (nodeAddresses : AtEveryDepth HoldAddresses [node]) :
    (draft.push node).HasAddresses :=
  ⟨holdAddresses_cons nodeAddresses addresses.nodes, addresses.calls⟩

/-- A blank is a new item, or joins one that is no text in quotes. -/
theorem exists_nodes_addBlank (draft : Draft) (gap : String) :
    ∃ latest rest, (draft.addBlank gap).nodes = latest :: rest ∧
      latest.args? = none ∧
      (draft.nodes = rest ∨
        ∃ joined, draft.nodes = joined :: rest ∧ joined.isQuoted = false) := by
  obtain ⟨nodes, calls⟩ := draft
  unfold Draft.addBlank
  split
  next kind before after rest isDivider =>
    exact ⟨_, rest, rfl, rfl, .inr ⟨_, isDivider, rfl⟩⟩
  next text rest isSpace =>
    exact ⟨_, rest, rfl, rfl, .inr ⟨_, isSpace, rfl⟩⟩
  next => exact ⟨_, nodes, rfl, rfl, .inl rfl⟩

theorem HasAddresses.addBlank {draft : Draft} (addresses : draft.HasAddresses)
    (gap : String) : (draft.addBlank gap).HasAddresses := by
  obtain ⟨latest, rest, isLatest, plain, earlier⟩ :=
    exists_nodes_addBlank draft gap
  have isPart : rest ⊆ draft.nodes := by
    rcases earlier with same | ⟨joined, replaced, -⟩
    · rw [same]
      exact fun _ member => member
    · rw [replaced]
      exact List.subset_cons_self joined rest
  refine ⟨?_, by simpa using addresses.calls⟩
  rw [isLatest]
  exact holdAddresses_cons (holdAddresses_plain plain)
    (holdAddresses_of_subset isPart addresses.nodes)

theorem takeSpace_subset (nodes : List Node) : (takeSpace nodes).2 ⊆ nodes := by
  unfold takeSpace
  split
  next => simp
  next => exact fun _ member => member

theorem HasAddresses.divide {draft : Draft} (addresses : draft.HasAddresses)
    (gap : String) (kind : Divider) :
    (draft.divide gap kind).HasAddresses :=
  ⟨holdAddresses_cons (holdAddresses_plain rfl)
    (holdAddresses_of_subset (takeSpace_subset draft.nodes) addresses.nodes),
    addresses.calls⟩

theorem HasAddresses.enter {draft : Draft} (addresses : draft.HasAddresses)
    (name before : String) : (draft.enter name before).HasAddresses := by
  refine ⟨holdAddresses_nil, ?_⟩
  intro call member
  rcases List.mem_cons.mp member with rfl | outer
  · exact addresses.nodes
  · exact addresses.calls call outer

/-- A call to `url` that is left was not raw. -/
theorem HasAddresses.leave {draft : Draft} (addresses : draft.HasAddresses)
    (start : StartQuoted draft.nodes draft.calls) (gap : String) :
    (draft.leave gap).HasAddresses := by
  obtain ⟨nodes, calls⟩ := draft
  cases calls with
  | nil => exact addresses
  | cons call calls =>
      have inside : AtEveryDepth HoldAddresses (takeSpace nodes).2.reverse :=
        holdAddresses_of_subset (fun _ member =>
          takeSpace_subset nodes (List.mem_reverse.mp member)) addresses.nodes
      refine ⟨holdAddresses_cons (holdAddresses_call ?_ inside)
        (addresses.calls call (by simp)), ?_⟩
      · intro _ isRaw
        obtain ⟨isUrl, notQuoted⟩ := Bool.and_eq_true_iff.mp isRaw
        obtain ⟨first, isFirst, isQuoted⟩ :=
          (start.1 (beq_iff_eq.mp isUrl)).takeSpace
        rw [List.head?_reverse, Option.mem_def.mp isFirst] at notQuoted
        simp [isQuoted] at notQuoted
      · intro outerCall member
        exact addresses.calls outerCall (List.mem_cons_of_mem call member)

theorem holdAddresses_closeAll {nodes : List Node} {calls : List OpenCall}
    (held : AtEveryDepth HoldAddresses nodes)
    (callsHeld : ∀ call ∈ calls, AtEveryDepth HoldAddresses call.outer) :
    AtEveryDepth HoldAddresses (closeAll nodes calls) := by
  have reversed : AtEveryDepth HoldAddresses nodes.reverse :=
    holdAddresses_of_subset (fun _ => List.mem_reverse.mp) held
  induction calls generalizing nodes with
  | nil => exact reversed
  | cons call calls ih =>
      have joined : AtEveryDepth HoldAddresses
          (.call call.name call.before nodes.reverse "" false :: call.outer) :=
        holdAddresses_cons (holdAddresses_call nofun reversed)
          (callsHeld call (by simp))
      apply ih joined
      · intro outerCall member
        exact callsHeld outerCall (List.mem_cons_of_mem call member)
      · exact holdAddresses_of_subset (fun _ => List.mem_reverse.mp) joined

theorem StartQuoted.addBlank {draft : Draft}
    (start : StartQuoted draft.nodes draft.calls) (gap : String) :
    StartQuoted (draft.addBlank gap).nodes (draft.addBlank gap).calls := by
  obtain ⟨latest, rest, isLatest, -, earlier⟩ :=
    exists_nodes_addBlank draft gap
  rw [isLatest, calls_addBlank]
  apply start.imp
  intro starts
  rcases earlier with same | ⟨joined, replaced, notQuoted⟩
  · rw [same] at starts
    exact starts.cons latest
  · rw [replaced] at starts
    exact (starts.tail notQuoted).cons latest

theorem StartQuoted.divide {draft : Draft}
    (start : StartQuoted draft.nodes draft.calls) (gap : String)
    (kind : Divider) :
    StartQuoted (draft.divide gap kind).nodes draft.calls :=
  start.imp fun starts => starts.takeSpace.cons _

theorem StartQuoted.leave {draft : Draft}
    (start : StartQuoted draft.nodes draft.calls) (gap : String) :
    StartQuoted (draft.leave gap).nodes (draft.leave gap).calls := by
  obtain ⟨nodes, calls⟩ := draft
  cases calls with
  | nil => exact start
  | cons call calls => exact start.2.imp fun starts => starts.cons _

/-- Before a call to `url` has items, a quoted text is what comes next. -/
def IsReady (draft : Draft) (lexemes : List (Lexeme Char)) : Prop :=
  StartQuoted draft.nodes draft.calls ∨
    opensQuoted lexemes = true ∧ draft.nodes = [] ∧
      ∀ call ∈ draft.calls.head?, StartQuoted call.outer draft.calls.tail

theorem IsReady.startQuoted {draft : Draft} {lexemes : List (Lexeme Char)}
    (ready : draft.IsReady lexemes)
    (notQuoted : opensQuoted lexemes = false) :
    StartQuoted draft.nodes draft.calls := by
  rcases ready with start | ⟨isQuoted, -⟩
  · exact start
  · rw [notQuoted] at isQuoted
    contradiction

theorem IsReady.push_quoted {draft : Draft} {lexemes : List (Lexeme Char)}
    (ready : draft.IsReady lexemes) (quote : Char) (value : String)
    (closed : Bool) :
    StartQuoted (draft.push (.quoted quote value closed)).nodes draft.calls := by
  obtain ⟨nodes, calls⟩ := draft
  rcases ready with start | ⟨-, noItems, outer⟩
  · exact start.imp fun starts => starts.cons _
  · have nodesEq : nodes = [] := noItems
    subst nodes
    cases calls with
    | nil => trivial
    | cons call calls => exact ⟨fun _ => ⟨_, rfl, rfl⟩, outer call rfl⟩

theorem IsReady.enter {draft : Draft} {depth : Nat}
    {lexemes : List (Lexeme Char)} {name : List Char}
    (start : StartQuoted draft.nodes draft.calls)
    (structured : Symbol.spells "url" name = true →
      ∃ c ∈ (lexemes.flatMap Lexeme.text).head?, Symbol.isQuote c = true)
    (fit : AllFit depth lexemes) (before : String) :
    (draft.enter (String.ofList name) before).IsReady lexemes := by
  by_cases isUrl : lowerCase (String.ofList name) = "url"
  · right
    have spelled := (spells_toList_iff "url" (String.ofList name)).mpr isUrl
    rw [String.toList_ofList] at spelled
    obtain ⟨c, isHead, isQuote⟩ := structured spelled
    refine ⟨opensQuoted_of_allFit fit isHead isQuote, rfl, ?_⟩
    intro call isHeadCall
    cases isHeadCall
    exact start
  · left
    exact ⟨fun named => absurd named isUrl, start⟩

theorem holdAddresses_address {nested closed : Bool}
    {rest name before text after : List Char}
    (fits : Fits nested rest (.url name before text after closed)) :
    AtEveryDepth HoldAddresses
      [address (String.ofList name) (String.ofList before)
        (String.ofList text) (String.ofList after) closed] := by
  apply holdAddresses_call
  · intro isClosed _
    subst closed
    exact isAddress_of_fits fits
  · split
    · exact holdAddresses_nil
    · exact holdAddresses_plain rfl

theorem holdAddresses_finish_of_extends {draft result : Draft} {depth : Nat}
    {lexemes : List (Lexeme Char)} (further : Extends draft lexemes result)
    (addresses : draft.HasAddresses) (ready : draft.IsReady lexemes)
    (fit : AllFit depth lexemes) :
    AtEveryDepth HoldAddresses result.finish := by
  induction further generalizing depth with
  | done => exact holdAddresses_closeAll addresses.nodes addresses.calls
  | blankDivider _ ih =>
      have start := ready.startQuoted rfl
      exact ih (addresses.divide _ _) (.inl (start.divide _ _)) fit.2.2
  | blankClosing _ ih =>
      have start := ready.startQuoted rfl
      exact ih (addresses.leave start _) (.inl (start.leave _)) fit.2.2
  | blank _ ih =>
      have start := ready.startQuoted rfl
      exact ih (addresses.addBlank _) (.inl (start.addBlank _)) fit.2
  | quoted _ ih =>
      exact ih (addresses.push (holdAddresses_plain rfl))
        (.inl (ready.push_quoted _ _ _)) fit.2
  | comment _ ih =>
      exact ih addresses (.inl (ready.startQuoted rfl)) fit.2
  | divider _ ih =>
      have start := ready.startQuoted rfl
      exact ih (addresses.divide _ _) (.inl (start.divide _ _)) fit.2
  | opening _ ih =>
      obtain ⟨fits, restFit⟩ := fit
      cases fits with
      | opening named blank stops structured =>
          exact ih (addresses.enter _ _)
            (.enter (ready.startQuoted rfl) structured restFit _) restFit
  | url _ ih =>
      have start := ready.startQuoted rfl
      exact ih (addresses.push (holdAddresses_address fit.1))
        (.inl (start.imp fun starts => starts.cons _)) fit.2
  | closing _ ih =>
      have start := ready.startQuoted rfl
      exact ih (addresses.leave start _) (.inl (start.leave _)) fit.2
  | word _ ih =>
      have start := ready.startQuoted rfl
      exact ih (addresses.push (holdAddresses_plain rfl))
        (.inl (start.imp fun starts => starts.cons _)) fit.2

end Draft

theorem holdAddresses_parse (text : String) :
    AtEveryDepth HoldAddresses (parse text) :=
  Draft.holdAddresses_finish_of_extends
    (Draft.extends_extend Draft.empty (lex 0 text.toList))
    ⟨holdAddresses_nil, nofun⟩ (.inl trivial) (allFit_lex 0 text.toList)

end StyleValue
