import StyleValue.Name.Call

/-! Verdicts, and the rules that give them: for one item, and for items with
separators between them. -/

namespace StyleValue

/-- A mistake that can be named more closely than "not a valid value". -/
inductive Fault where
  | notSingle
  | tooMany (max : Nat)
  | missingHash (word : String)
  | badIdentifier (word : String)
deriving DecidableEq, Repr

def Fault.message : Fault → String
  | .notSingle => "Expected a single value to be passed."
  | .tooMany max => "Expected a maximum of " ++ toString max ++ " values."
  | .missingHash word => "Expected \"" ++ word ++ "\" to start with a \"#\"."
  | .badIdentifier word =>
      "Expected \"" ++ word ++ "\" to be a valid custom identifier."

inductive Verdict where
  | accept
  | mismatch
  | reject (fault : Fault)
deriving DecidableEq, Repr

namespace Verdict

def ofBool : Bool → Verdict
  | true => .accept
  | false => .mismatch

def isAccept : Verdict → Bool
  | .accept => true
  | _ => false

@[simp] theorem isAccept_ofBool (matched : Bool) :
    (ofBool matched).isAccept = matched := by
  cases matched <;> rfl

end Verdict

/-- A rule for one item. -/
inductive ItemRule where
  | keyword (keywords : List String)
  | test (accepts : Node → Bool)
  | check (verdict : Node → Verdict)
  | anyOf (rules : List ItemRule)

mutual

def ItemRule.verdict (node : Node) : ItemRule → Verdict
  | .keyword keywords => .ofBool (node.isKeyword keywords)
  | .test accepts => .ofBool (accepts node)
  | .check verdict => verdict node
  | .anyOf rules => ItemRule.firstVerdict node rules

/-- The verdict of the first rule that has more to say than a mismatch. -/
def ItemRule.firstVerdict (node : Node) : List ItemRule → Verdict
  | [] => .mismatch
  | rule :: rest =>
      match ItemRule.verdict node rule with
      | .mismatch => ItemRule.firstVerdict node rest
      | verdict => verdict

end

/-- Items with separators between them, `max` items at most. A loose repetition
may end in a separator, or be empty.

A bound is at least one, and its double fits in a machine word. `check` is defined
for every number, but what it says of a bound outside that range has no meaning;
the bounds that properties have are two and four. -/
structure Repetition where
  item : ItemRule
  separator : Separator
  max : Option Nat := none
  isStrict : Bool := true

namespace Repetition

/-- A variable may stand for any item. -/
def itemVerdict (repetition : Repetition) (node : Node) : Verdict :=
  if node.isVariable then .accept else repetition.item.verdict node

/-- The first verdict that is not to accept. -/
def walk (repetition : Repetition) : List Node → Verdict
  | [] => .accept
  | [node] => repetition.itemVerdict node
  | node :: gap :: rest =>
      match repetition.itemVerdict node with
      | .accept =>
          if repetition.separator.accepts gap then repetition.walk rest
          else .mismatch
      | verdict => verdict

/-- The bound on the length counts separators too. -/
def check (repetition : Repetition) (nodes : List Node) : Verdict :=
  if repetition.isStrict && nodes.length % 2 == 0 then .mismatch
  else match repetition.max.filter fun max => 2 * max - 1 < nodes.length with
    | some max => .reject (.tooMany max)
    | none => repetition.walk nodes

end Repetition

end StyleValue
