import StyleValue.Proofs.Tree.Address
import StyleValue.Proofs.Tree.Spelling

/-! A canonical tree is read back from its own text: the lexemes of the tree
build the tree. -/

namespace StyleValue

open Lexeme

/-- What may follow an item among the lexemes: its blanks stay its own. -/
def Node.KeepsBlank (following : List (Lexeme Char)) : Node → Prop
  | .space _ => takesBlank following = false
  | .divider _ _ after => after ≠ "" → takesBlank following = false
  | _ => True

theorem takesBlank_lexemes {node : Node} (notDivider : node.isDivider = false)
    (more : List (Lexeme Char)) : takesBlank (node.lexemes ++ more) = false := by
  cases node with
  | divider => contradiction
  | word | space | quoted => simp [Node.lexemes, takesBlank]
  | call name before args after closed =>
      unfold Node.lexemes
      split <;> rfl

theorem Node.keepsBlank_of_mayPrecede {node next : Node}
    (precedes : node.MayPrecede next) (more : List (Lexeme Char)) :
    node.KeepsBlank (next.lexemes ++ more) := by
  cases node with
  | word | quoted | call => trivial
  | space => exact takesBlank_lexemes precedes.2 more
  | divider kind before after =>
      intro gap
      apply takesBlank_lexemes
      cases isDivider : next.isDivider with
      | false => rfl
      | true => exact absurd (precedes.2.1 isDivider) gap

theorem Node.MayClose.keepsBlank {node : Node} (closes : node.MayClose)
    (more : List (Lexeme Char)) : node.KeepsBlank more := by
  cases node with
  | word | quoted | call => trivial
  | space => exact closes.elim
  | divider kind before after => exact fun gap => absurd closes gap

theorem Node.apart_of_mayPrecede_space {node : Node} {gap : String}
    (precedes : node.MayPrecede (.space gap)) :
    node.isSpace = false ∧ node.isDivider = false := by
  cases node with
  | space | divider => exact absurd precedes.1 nofun
  | word | quoted | call => exact ⟨rfl, rfl⟩

theorem Node.notSpace_of_mayPrecede_divider {node : Node} {kind : Divider}
    {before after : String}
    (precedes : node.MayPrecede (.divider kind before after)) :
    node.isSpace = false := by
  cases node with
  | space => exact absurd precedes.2 nofun
  | word | quoted | divider | call => rfl

theorem Node.MayClose.notSpace {node : Node} (closes : node.MayClose) :
    node.isSpace = false := by
  cases node with
  | space => exact closes.elim
  | word | quoted | divider | call => rfl

namespace Draft

theorem extend_blank {rest : List (Lexeme Char)}
    (stays : takesBlank rest = false) (draft : Draft) (gap : List Char) :
    draft.extend (.blank gap :: rest) =
      (draft.addBlank (String.ofList gap)).extend rest := by
  cases rest with
  | nil => rfl
  | cons next rest =>
      cases next with
      | divider | closing => contradiction
      | blank | quoted | comment | opening | url | word =>
          rw [extend]
          all_goals nofun

theorem extend_divider (draft : Draft) (gap : String) (kind : Divider)
    (rest : List (Lexeme Char)) :
    draft.extend (blankLexemes gap ++ .divider kind :: rest) =
      (draft.divide gap kind).extend rest := by
  by_cases isEmpty : gap = ""
  · rw [blankLexemes, if_pos isEmpty, isEmpty, List.nil_append, extend]
  · rw [blankLexemes, if_neg isEmpty, List.singleton_append, extend,
      String.ofList_toList]

theorem extend_closing (draft : Draft) (gap : String)
    (rest : List (Lexeme Char)) :
    draft.extend (blankLexemes gap ++ .closing :: rest) =
      (draft.leave gap).extend rest := by
  by_cases isEmpty : gap = ""
  · rw [blankLexemes, if_pos isEmpty, isEmpty, List.nil_append, extend]
  · rw [blankLexemes, if_neg isEmpty, List.singleton_append, extend,
      String.ofList_toList]

theorem takeSpace_of_isSpace_eq_false {nodes : List Node}
    (notSpace : ∀ last ∈ nodes.head?, last.isSpace = false) :
    takeSpace nodes = ("", nodes) := by
  cases nodes with
  | nil => rfl
  | cons node earlier =>
      cases node with
      | space text => exact absurd (notSpace _ rfl) nofun
      | word | quoted | divider | call => rfl

theorem addBlank_eq_push {draft : Draft}
    (apart : ∀ last ∈ draft.nodes.head?,
      last.isSpace = false ∧ last.isDivider = false) (gap : String) :
    draft.addBlank gap = draft.push (.space gap) := by
  obtain ⟨nodes, calls⟩ := draft
  cases nodes with
  | nil => rfl
  | cons node earlier =>
      have notJoined := apart node rfl
      cases node with
      | space | divider => simp [Node.isSpace, Node.isDivider] at notJoined
      | word | quoted | call => rfl

def pushAll (draft : Draft) (nodes : List Node) : Draft :=
  { draft with nodes := nodes.reverse ++ draft.nodes }

theorem leave_pushAll_enter {args : List Node}
    (notSpace : ∀ last ∈ args.getLast?, last.isSpace = false)
    (draft : Draft) (name before after : String) :
    ((draft.enter name before).pushAll args).leave after =
      draft.push (.call name before args after true) := by
  have nothingTaken : takeSpace args.reverse = ("", args.reverse) :=
    takeSpace_of_isSpace_eq_false (by simpa using notSpace)
  simp [leave, pushAll, enter, push, nothingTaken]

end Draft

theorem IsAddress.address_eq {name before after : String} {args : List Node}
    (address : IsAddress after args) :
    Draft.address name before (render args) after true =
      .call name before args after true := by
  cases args with
  | nil => simp [Draft.address, render]
  | cons arg more =>
      cases more with
      | cons => cases arg <;> exact address.elim
      | nil =>
          cases arg with
          | space | quoted | divider | call => exact address.elim
          | word spelled =>
              simp [Draft.address, render, Node.render, address.1]

mutual

theorem Node.extend_lexemes :
    (node : Node) → node.IsCanonical → {draft : Draft} →
      {rest : List (Lexeme Char)} →
      (∀ last ∈ draft.nodes.head?, last.MayPrecede node) →
      node.KeepsBlank rest →
      draft.extend (node.lexemes ++ rest) = (draft.push node).extend rest
  | .word spelled, _, draft, rest, _, _ => by
      simp [Node.lexemes, Draft.extend]
  | .quoted quote value closed, _, draft, rest, _, _ => by
      simp [Node.lexemes, Draft.extend]
  | .space gap, _, draft, rest, precedes, keeps => by
      rw [Node.lexemes, List.singleton_append, Draft.extend_blank keeps,
        String.ofList_toList, Draft.addBlank_eq_push]
      intro last isLast
      exact Node.apart_of_mayPrecede_space (precedes last isLast)
  | .divider kind before after, _, draft, rest, precedes, keeps => by
      have notSpace : ∀ last ∈ draft.nodes.head?, last.isSpace = false :=
        fun last isLast => Node.notSpace_of_mayPrecede_divider
          (precedes last isLast)
      have divided : draft.divide before kind =
          draft.push (.divider kind before "") := by
        simp [Draft.divide, Draft.push,
          Draft.takeSpace_of_isSpace_eq_false notSpace]
      rw [Node.lexemes, List.append_assoc, List.cons_append,
        Draft.extend_divider, divided]
      by_cases isEmpty : after = ""
      · rw [blankLexemes, if_pos isEmpty, isEmpty, List.nil_append]
      · rw [blankLexemes, if_neg isEmpty, List.singleton_append,
          Draft.extend_blank (keeps isEmpty), String.ofList_toList]
        simp [Draft.addBlank, Draft.push]
  | .call name before args after closed, canonical, draft, rest, _, _ => by
      obtain ⟨-, -, -, isClosed, inside⟩ := canonical
      subst closed
      unfold Node.lexemes
      split at inside
      next isRaw =>
        rw [if_pos isRaw, List.singleton_append, Draft.extend]
        simp only [String.ofList_toList]
        rw [inside.address_eq]
      next notRaw =>
        obtain ⟨argsCanonical, -, closes, -⟩ := inside
        have argsBuilt : (draft.enter name before).extend
            (lexemesOf args ++ (blankLexemes after ++ .closing :: rest)) =
              ((draft.enter name before).pushAll args).extend
                (blankLexemes after ++ .closing :: rest) :=
          extend_lexemesOf args argsCanonical nofun
            (fun last isLast => (closes last isLast).keepsBlank _)
        rw [if_neg notRaw, List.cons_append, Draft.extend]
        simp only [String.ofList_toList, List.append_assoc,
          List.singleton_append]
        rw [argsBuilt, Draft.extend_closing, Draft.leave_pushAll_enter]
        intro last isLast
        exact (closes last isLast).notSpace

theorem extend_lexemesOf :
    (nodes : List Node) → AreCanonical nodes → {draft : Draft} →
      {rest : List (Lexeme Char)} →
      (∀ last ∈ draft.nodes.head?, ∀ first ∈ nodes.head?,
        last.MayPrecede first) →
      (∀ last ∈ nodes.getLast?, last.KeepsBlank rest) →
      draft.extend (lexemesOf nodes ++ rest) = (draft.pushAll nodes).extend rest
  | [], _, draft, rest, _, _ => by simp [lexemesOf, Draft.pushAll]
  | node :: more, canonical, draft, rest, precedes, keeps => by
      obtain ⟨nodeCanonical, nodePrecedes, moreCanonical⟩ := canonical
      have moreBuilt : (draft.push node).extend (lexemesOf more ++ rest) =
          ((draft.push node).pushAll more).extend rest := by
        refine extend_lexemesOf more moreCanonical ?_ ?_
        · intro last isLast
          cases isLast
          exact nodePrecedes
        · intro last isLast
          apply keeps last
          rw [List.getLast?_cons, Option.mem_def.mp isLast]
          rfl
      rw [lexemesOf, List.append_assoc,
        Node.extend_lexemes node nodeCanonical
          (fun last isLast => precedes last isLast node rfl), moreBuilt]
      · simp [Draft.pushAll, Draft.push]
      · cases more with
        | nil => simpa [lexemesOf] using keeps node rfl
        | cons next more =>
            rw [lexemesOf, List.append_assoc]
            exact Node.keepsBlank_of_mayPrecede (nodePrecedes next rfl) _

end

theorem parse_render {nodes : List Node} (canonical : AreCanonical nodes) :
    parse (render nodes) = nodes := by
  have built : Draft.empty.extend (lexemesOf nodes ++ []) =
      (Draft.empty.pushAll nodes).extend [] :=
    extend_lexemesOf nodes canonical nofun
      (fun last _ => by cases last <;> simp [Node.KeepsBlank, takesBlank])
  rw [List.append_nil] at built
  rw [parse, lex_render canonical, built]
  simp [Draft.extend, Draft.pushAll, Draft.empty, Draft.finish, Draft.closeAll]

/-- A canonical tree is the tree of its own text; and of the trees that are
well formed but for their raw calls, no others are. -/
theorem parse_render_canonical (nodes : List Node) :
    (AreCanonical nodes → parse (render nodes) = nodes) ∧
      (AreWellFormed nodes → parse (render nodes) = nodes →
        AreCanonical nodes) := by
  refine ⟨parse_render, ?_⟩
  intro formed readBack
  apply areCanonical_of_areFormed nodes formed
  rw [← readBack]
  exact holdAddresses_parse (render nodes)

theorem parse_render_marks_and_address :
    (∃ nodes, AreCanonical nodes ∧
      render nodes = "a\\,b/ calc( (1px) +,:\"x\\\"y\"\t) URL( a/b:c d\\) )" ∧
      parse (render nodes) = nodes) ∧
    ∃ nodes, AreWellFormed nodes ∧ render nodes = "url(a b)" ∧
      parse (render nodes) ≠ nodes := by
  constructor
  · have canonical : AreCanonical
        [.word "a\\,b", .divider .slash "" " ",
          .call "calc" " "
            [.call "" "" [.word "1px"] "" true, .space " ", .word "+",
              .divider .comma "" "", .divider .colon "" "",
              .quoted '"' "x\\\"y" true] "\t" true,
          .space " ", .call "URL" " " [.word "a/b:c d\\)"] " " true] := by
      decide +kernel
    exact ⟨_, canonical, by decide +kernel,
      (parse_render_canonical _).1 canonical⟩
  · have formed : AreWellFormed
        [.call "url" "" [.word "a", .space " ", .word "b"] "" true] := by
      decide +kernel
    have notCanonical : ¬ AreCanonical
        [.call "url" "" [.word "a", .space " ", .word "b"] "" true] := by
      decide +kernel
    exact ⟨_, formed, by decide +kernel, fun readBack =>
      notCanonical ((parse_render_canonical _).2 formed readBack)⟩

end StyleValue
