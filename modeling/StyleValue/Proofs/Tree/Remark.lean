import StyleValue.Proofs.Tree.Extension
import StyleValue.Proofs.Tree.Reading

/-! Text that says nothing, made of blanks and comments. Its tree holds no item
but spaces. -/

namespace StyleValue

/-- Blanks and comments only. A comment that nothing ends goes on to the end of
the text. -/
inductive IsRemark : List Char → Prop
  | done : IsRemark []
  | blank {c : Char} {rest : List Char} (isBlank : Symbol.isBlank c = true)
      (further : IsRemark rest) : IsRemark (c :: rest)
  | comment {body rest : List Char} (unended : ¬ ['*', '/'] <:+: body)
      (further : IsRemark rest) :
      IsRemark ('/' :: '*' :: (body ++ '*' :: '/' :: rest))
  | unclosed {body : List Char} (unended : ¬ ['*', '/'] <:+: body) :
      IsRemark ('/' :: '*' :: body)

/-! Reading. -/

namespace Lexeme

def isRemark : Lexeme Char → Bool
  | .blank _ => true
  | .comment _ _ => true
  | _ => false

end Lexeme

namespace IsRemark

theorem dropWhile {text : List Char} (remark : IsRemark text) :
    IsRemark (text.dropWhile Symbol.isBlank) := by
  induction remark with
  | done => exact .done
  | blank isBlank _ ih =>
      rw [List.dropWhile_cons_of_pos isBlank]
      exact ih
  | comment unended further => exact .comment unended further
  | unclosed unended => exact .unclosed unended

theorem read {nested : Bool} {symbol : Char} {rest : List Char}
    (remark : IsRemark (symbol :: rest)) :
    (Lexeme.read nested symbol rest).1.isRemark = true ∧
      IsRemark (Lexeme.read nested symbol rest).2 := by
  cases remark with
  | blank isBlank further =>
      rw [Lexeme.read, if_pos isBlank]
      exact ⟨rfl, further.dropWhile⟩
  | @comment body more unended further =>
      have fits : (Lexeme.comment body true).Fits nested more :=
        .comment unended fun isOpen => Bool.noConfusion isOpen
      rw [Lexeme.read_of_fits fits (by simp [Lexeme.text])]
      exact ⟨rfl, further⟩
  | @unclosed body unended =>
      have fits : (Lexeme.comment body false).Fits nested [] :=
        .comment unended fun _ => rfl
      rw [Lexeme.read_of_fits fits (by simp [Lexeme.text])]
      exact ⟨rfl, .done⟩

end IsRemark

theorem Lexeme.forall_isRemark_lex {depth : Nat} {text : List Char}
    (remark : IsRemark text) :
    ∀ lexeme ∈ lex depth text, lexeme.isRemark = true := by
  fun_induction lex depth text with
  | case1 => exact List.forall_mem_nil _
  | case2 depth symbol rest step ih =>
      obtain ⟨first, further⟩ := remark.read
      exact List.forall_mem_cons.mpr ⟨first, ih further⟩

/-! Building. -/

namespace Draft

/-- Nothing has been read that says anything. -/
structure IsBlank (draft : Draft) : Prop where
  nodes : ∀ node ∈ draft.nodes, node.isSpace = true
  calls : draft.calls = []

theorem IsBlank.addBlank {draft : Draft} (blank : draft.IsBlank)
    (gap : String) : (draft.addBlank gap).IsBlank := by
  obtain ⟨nodes, calls⟩ := draft
  obtain ⟨spaces, noCalls⟩ := blank
  refine ⟨?_, by rw [calls_addBlank, noCalls]⟩
  cases nodes with
  | nil =>
      intro node member
      rw [List.mem_singleton.mp member]
      rfl
  | cons last earlier =>
      obtain ⟨isSpace, earlierSpaces⟩ := List.forall_mem_cons.mp spaces
      cases last with
      | space => exact List.forall_mem_cons.mpr ⟨rfl, earlierSpaces⟩
      | word | quoted | divider | call => contradiction

theorem isBlank_of_extends {draft result : Draft}
    {lexemes : List (Lexeme Char)} (further : Extends draft lexemes result)
    (remarks : ∀ lexeme ∈ lexemes, lexeme.isRemark = true)
    (blank : draft.IsBlank) : result.IsBlank := by
  induction further with
  | done => exact blank
  | blank _ ih =>
      exact ih (List.forall_mem_cons.mp remarks).2 (blank.addBlank _)
  | comment _ ih => exact ih (List.forall_mem_cons.mp remarks).2 blank
  | blankDivider | blankClosing =>
      have notRemark := remarks _ (List.mem_cons_of_mem _ List.mem_cons_self)
      contradiction
  | quoted | divider | opening | url | closing | word =>
      have notRemark := remarks _ List.mem_cons_self
      contradiction

end Draft

theorem forall_isSpace_parse {text : String} (remark : IsRemark text.toList) :
    ∀ node ∈ parse text, node.isSpace = true := by
  have blank : (Draft.empty.extend (Lexeme.lex 0 text.toList)).IsBlank :=
    Draft.isBlank_of_extends (Draft.extends_extend _ _)
      (Lexeme.forall_isRemark_lex remark) ⟨nofun, rfl⟩
  intro node member
  rw [parse, Draft.finish, blank.calls, Draft.closeAll, List.mem_reverse]
    at member
  exact blank.nodes node member

end StyleValue
