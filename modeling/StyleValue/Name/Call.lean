import StyleValue.Sequence.Separated
import StyleValue.Text.Symbol

/-! Words that are keywords, and calls by their names. -/

namespace StyleValue

def Node.isKeyword (keywords : List String) (node : Node) : Bool :=
  node.isWordThat fun word => keywords.any (sameName word)

/-- Keywords that every property takes. -/
def globalKeywords : List String :=
  ["inherit", "initial", "revert", "unset"]

def Node.isGlobalKeyword (node : Node) : Bool :=
  node.isKeyword globalKeywords

namespace Node

/-- The items inside a call to one of `names`. -/
def argsOf? (names : List String) : Node → Option (List Node)
  | .call name _ args _ _ =>
      if names.any (sameName name) then some args else none
  | _ => none

def isCallTo (names : List String) (node : Node) : Bool :=
  (node.argsOf? names).isSome

/-- A reference to a variable stands for a value that is not known yet. -/
def isVariable (node : Node) : Bool :=
  node.isCallTo ["var"]

def isUrl (node : Node) : Bool :=
  node.isCallTo ["url"]

def isKeywordOrVariable (keywords : List String) (node : Node) : Bool :=
  node.isKeyword keywords || node.isVariable

end Node

/-- The calls to `names` with one argument for each parameter, in order and
with commas between them. -/
structure Signature where
  names : List String
  parameters : List (Node → Bool)

def Signature.fits (signature : Signature) (node : Node) : Bool :=
  (node.argsOf? signature.names).any
    (isTupleOf .comma signature.parameters)

end StyleValue
