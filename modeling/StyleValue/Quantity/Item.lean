import StyleValue.Quantity.Calc

/-! Items that are quantities, and the sizes of tracks that are made of them. -/

namespace StyleValue

namespace Node

def isInteger (node : Node) : Bool :=
  node.isWordThat Quantity.isInteger

def isNumber (node : Node) : Bool :=
  node.isWordThat Quantity.isNumber

def isPercentage (node : Node) : Bool :=
  node.isWordThat Quantity.isPercentage

/-- Every expression counts as a length, whatever its terms are. -/
def isLength (node : Node) : Bool :=
  node.isCalc || node.isWordThat Quantity.isLength

def isLengthPercentage (node : Node) : Bool :=
  node.isLength || node.isPercentage

def isAngle (node : Node) : Bool :=
  node.isWordThat Quantity.isAngle

def isTime (node : Node) : Bool :=
  node.isWordThat Quantity.isTime

def isResolution (node : Node) : Bool :=
  node.isWordThat Quantity.isResolution

def isMultiplier (node : Node) : Bool :=
  node.isWordThat Quantity.isMultiplier

def isFlex (node : Node) : Bool :=
  node.isWordThat Quantity.isFlex

def isFraction (node : Node) : Bool :=
  node.isWordThat Quantity.isFraction

end Node

namespace Track

def isBreadth (node : Node) : Bool :=
  node.isKeyword ["min-content", "max-content", "auto"] ||
    node.isLengthPercentage

/-- Only the upper bound of a range may be flexible. -/
def range : Signature :=
  ⟨["minmax"], [isBreadth, fun node => isBreadth node || node.isFlex]⟩

end Track

def Node.isTrackSize (node : Node) : Bool :=
  Track.range.fits node || node.isFlex || Track.isBreadth node

end StyleValue
