import StyleValue.Grammar.Rule

/-! Rules for whole values, and the properties that share one. -/

namespace StyleValue

/-- A rule for a whole value. -/
inductive Grammar where
  | single (rule : ItemRule)
  | list (repetition : Repetition)
  | oneOf (alternatives : List Grammar)
  | custom (verdict : List Node → Verdict)

namespace Grammar

def keywords (set : List String) : Grammar :=
  .single (.keyword set)

def item (accepts : Node → Bool) : Grammar :=
  .single (.test accepts)

def either (rules : List ItemRule) : Grammar :=
  .single (.anyOf rules)

def commaList (rule : ItemRule) : Grammar :=
  .list { item := rule, separator := .comma }

def spaceList (rule : ItemRule) : Grammar :=
  .list { item := rule, separator := .space }

def spaceListUpTo (max : Nat) (rule : ItemRule) : Grammar :=
  .list { item := rule, separator := .space, max := some max }

def looseSpaceList (rule : ItemRule) : Grammar :=
  .list { item := rule, separator := .space, isStrict := false }

def whole (accepts : List Node → Bool) : Grammar :=
  .custom fun nodes => .ofBool (accepts nodes)

mutual

def check (nodes : List Node) : Grammar → Verdict
  | .single rule =>
      match nodes with
      | [node] => rule.verdict node
      | _ => .reject .notSingle
  | .list repetition => repetition.check nodes
  | .oneOf alternatives => checkAny nodes .mismatch alternatives
  | .custom verdict => verdict nodes

/-- Accept if one alternative does; otherwise the last one has the word. -/
def checkAny (nodes : List Node) (last : Verdict) : List Grammar → Verdict
  | [] => last
  | grammar :: rest =>
      match check nodes grammar with
      | .accept => .accept
      | verdict => checkAny nodes verdict rest

end

end Grammar

namespace Property

/-- Properties that share a grammar. -/
structure Family where
  members : List String
  grammar : Grammar

end Property

end StyleValue
