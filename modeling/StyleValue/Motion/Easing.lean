import StyleValue.Name.Identifier
import StyleValue.Quantity.Item

namespace StyleValue

namespace Easing

def curves : List String :=
  ["ease", "linear", "ease-in", "ease-out", "ease-in-out", "step-start",
    "step-end"]

/-- A step count, and where the steps fall; or the two control points of a
curve, whose first coordinates are points in time. -/
def signatures : List Signature :=
  [ ⟨["steps"], [Node.isInteger]⟩,
    ⟨["steps"], [Node.isInteger, Node.isKeyword ["start", "end"]]⟩,
    ⟨["cubic-bezier"],
      [Node.isFraction, Node.isNumber, Node.isFraction, Node.isNumber]⟩ ]

end Easing

namespace Node

def isTimingFunction (node : Node) : Bool :=
  node.isKeyword Easing.curves || Easing.signatures.any (·.fits node)

def isIterationCount (node : Node) : Bool :=
  node.isKeyword ["infinite"] || node.isNumber

def isAnimationName (node : Node) : Bool :=
  node.isKeyword ["none"] || node.isCustomIdentifier

def isAnimatableFeature (node : Node) : Bool :=
  node.isKeyword ["scroll-position", "contents"] || node.isCustomIdentifier

end Node

end StyleValue
