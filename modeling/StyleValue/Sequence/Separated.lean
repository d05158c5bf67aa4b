import StyleValue.Tree.Node

/-! Sequences of items, by the groups between their commas and by the separators
between neighbours. -/

namespace StyleValue

/-- The runs between the elements that are breaks; always at least one. -/
def groupsBy {α : Type} (isBreak : α → Bool) : List α → List (List α)
  | [] => [[]]
  | element :: rest =>
      if isBreak element then [] :: groupsBy isBreak rest
      else (groupsBy isBreak rest).modifyHead (element :: ·)

theorem groupsBy_ne_nil {α : Type} (isBreak : α → Bool) (elements : List α) :
    groupsBy isBreak elements ≠ [] := by
  induction elements with
  | nil => simp [groupsBy]
  | cons element rest ih =>
      simp only [groupsBy]
      split
      · simp
      · simpa [List.modifyHead_eq_nil_iff] using ih

/-- Commas inside a call do not count: they are items of the call. -/
def commaGroups (nodes : List Node) : List (List Node) :=
  groupsBy Node.isComma nodes

inductive Separator where
  | comma
  | space
deriving DecidableEq, Repr

def Separator.accepts : Separator → Node → Bool
  | .comma, node => node.isComma
  | .space, node => node.isSpace

/-- One or more items, with one separator between neighbours. -/
def isListOf (item : Node → Bool) (separator : Separator) :
    List Node → Bool
  | [] => false
  | [node] => item node
  | node :: gap :: rest =>
      item node && separator.accepts gap && isListOf item separator rest

/-- One item for each test, in order, with one separator between neighbours. -/
def isTupleOf (separator : Separator) : List (Node → Bool) → List Node → Bool
  | [item], [node] => item node
  | item :: items, node :: gap :: rest =>
      item node && separator.accepts gap && isTupleOf separator items rest
  | _, _ => false

/-- The items of a sequence in which a space stands between neighbours. -/
def spacedItems? : List Node → Option (List Node)
  | [] => none
  | [node] => some [node]
  | node :: gap :: rest =>
      if gap.isSpace then (spacedItems? rest).map (node :: ·) else none

end StyleValue
