import StyleValue.Tree.Parse

/-! What reading further lexemes does to a draft, one rule a lexeme, or a blank
with the divider or closing bracket that it goes with. -/

namespace StyleValue

/-- Blanks before the lexemes go with the first of them. -/
def takesBlank : List (Lexeme Char) → Bool
  | .divider _ :: _ => true
  | .closing :: _ => true
  | _ => false

namespace Draft

inductive Extends : Draft → List (Lexeme Char) → Draft → Prop
  | done {draft : Draft} : Extends draft [] draft
  | blankDivider {draft result : Draft} {gap : List Char} {kind : Divider}
      {rest : List (Lexeme Char)}
      (further : Extends (draft.divide (String.ofList gap) kind) rest result) :
      Extends draft (.blank gap :: .divider kind :: rest) result
  | blankClosing {draft result : Draft} {gap : List Char}
      {rest : List (Lexeme Char)}
      (further : Extends (draft.leave (String.ofList gap)) rest result) :
      Extends draft (.blank gap :: .closing :: rest) result
  | blank {draft result : Draft} {gap : List Char} {rest : List (Lexeme Char)}
      (further : Extends (draft.addBlank (String.ofList gap)) rest result) :
      Extends draft (.blank gap :: rest) result
  | quoted {draft result : Draft} {quote : Char} {value : List Char}
      {closed : Bool} {rest : List (Lexeme Char)}
      (further : Extends
        (draft.push (.quoted quote (String.ofList value) closed)) rest result) :
      Extends draft (.quoted quote value closed :: rest) result
  | comment {draft result : Draft} {body : List Char} {closed : Bool}
      {rest : List (Lexeme Char)} (further : Extends draft rest result) :
      Extends draft (.comment body closed :: rest) result
  | divider {draft result : Draft} {kind : Divider}
      {rest : List (Lexeme Char)}
      (further : Extends (draft.divide "" kind) rest result) :
      Extends draft (.divider kind :: rest) result
  | opening {draft result : Draft} {name before : List Char}
      {rest : List (Lexeme Char)}
      (further : Extends
        (draft.enter (String.ofList name) (String.ofList before)) rest result) :
      Extends draft (.opening name before :: rest) result
  | url {draft result : Draft} {name before text after : List Char}
      {closed : Bool} {rest : List (Lexeme Char)}
      (further : Extends
        (draft.push (address (String.ofList name) (String.ofList before)
          (String.ofList text) (String.ofList after) closed)) rest result) :
      Extends draft (.url name before text after closed :: rest) result
  | closing {draft result : Draft} {rest : List (Lexeme Char)}
      (further : Extends (draft.leave "") rest result) :
      Extends draft (.closing :: rest) result
  | word {draft result : Draft} {text : List Char} {rest : List (Lexeme Char)}
      (further : Extends (draft.push (.word (String.ofList text))) rest
        result) :
      Extends draft (.word text :: rest) result

theorem extends_extend (draft : Draft) (lexemes : List (Lexeme Char)) :
    Extends draft lexemes (draft.extend lexemes) := by
  fun_induction extend draft lexemes with
  | case1 => exact .done
  | case2 draft gap kind rest ih => exact .blankDivider ih
  | case3 draft gap rest ih => exact .blankClosing ih
  | case4 draft gap rest _ _ ih => exact .blank ih
  | case5 draft quote value closed rest ih => exact .quoted ih
  | case6 draft body closed rest ih => exact .comment ih
  | case7 draft kind rest ih => exact .divider ih
  | case8 draft name before rest ih => exact .opening ih
  | case9 draft name before text after closed rest ih => exact .url ih
  | case10 draft rest ih => exact .closing ih
  | case11 draft text rest ih => exact .word ih

@[simp] theorem calls_addBlank (draft : Draft) (gap : String) :
    (draft.addBlank gap).calls = draft.calls := by
  unfold addBlank
  split <;> rfl

@[simp] theorem length_calls_leave (draft : Draft) (gap : String) :
    (draft.leave gap).calls.length = draft.calls.length - 1 := by
  unfold leave
  split
  next noCall => rw [noCall]; rfl
  next call calls isCall => rw [isCall]; rfl

end Draft

end StyleValue
