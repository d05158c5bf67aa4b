import StyleValue.Geometry.Position

/-! What is painted on a box: its lines, and the layers of its background. -/

namespace StyleValue

namespace Node

def isLineStyle (node : Node) : Bool :=
  node.isKeyword
    ["none", "hidden", "dotted", "dashed", "solid", "double", "groove",
      "ridge", "inset", "outset"]

def isLineWidth (node : Node) : Bool :=
  node.isLength || node.isKeyword ["thin", "medium", "thick"]

end Node

namespace Layer

/-! Repetitions. -/

def repeats : List String := ["repeat", "space", "round", "no-repeat"]

/-- A repetition along one axis, or one for both, or one for each. Spaces are
not looked at. -/
def isRepeatStyle (group : List Node) : Bool :=
  match group.filter fun node => !node.isSpace with
  | [only] =>
      only.isKeyword ["repeat-x", "repeat-y"] ||
        only.isKeywordOrVariable repeats
  | [x, y] => x.isKeywordOrVariable repeats && y.isKeywordOrVariable repeats
  | _ => false

def isRepeatStyleList (nodes : List Node) : Bool :=
  !endsInDivider nodes && (commaGroups nodes).all isRepeatStyle

/-! Sizes. -/

def isExtent (node : Node) : Bool :=
  node.isKeyword ["auto"] || node.isLengthPercentage || node.isVariable

def isSize : List Node → Bool
  | [size] => isExtent size
  | [width, gap, height] => isExtent width && gap.isSpace && isExtent height
  | _ => false

/-- Sizes that follow the area to cover; one of them is the whole value. -/
def isFit : List Node → Bool
  | [only] => only.isKeyword ["cover", "contain"]
  | _ => false

def isSizeList (nodes : List Node) : Bool :=
  isFit nodes || (!nodes.any Node.isSlash && (commaGroups nodes).all isSize)

end Layer

end StyleValue
