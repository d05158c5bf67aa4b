import StyleValue.Geometry.Position
import StyleValue.Paint.Color

namespace StyleValue

namespace Gradient

def isColorStop : List Node → Bool
  | [color] => color.isColor
  | [color, gap, place] =>
      color.isColor && gap.isSpace && place.isLengthPercentage
  | _ => false

/-- At least two stops, after a definition or none. A first group that reads as
a definition is one. -/
def hasColorStops (isDefinition : List Node → Bool) (args : List Node) :
    Bool :=
  let groups := commaGroups args
  let stops :=
    if groups.head?.any isDefinition then groups.tail else groups
  2 ≤ stops.length && stops.all isColorStop

def horizontalSides : List String := ["left", "right"]

def verticalSides : List String := ["top", "bottom"]

/-- A direction towards a side, or towards a corner named by two sides. -/
def isDirection : List Node → Bool
  | [mark, side] =>
      mark.isKeyword ["to"] && side.isKeyword ["left", "right", "top", "bottom"]
  | [mark, first, second] =>
      mark.isKeyword ["to"] &&
        ((first.isKeyword horizontalSides && second.isKeyword verticalSides) ||
          (first.isKeyword verticalSides && second.isKeyword horizontalSides))
  | _ => false

def isLinearDefinition (group : List Node) : Bool :=
  match group with
  | [angle] => angle.isAngle
  | _ => (spacedItems? group).any isDirection

def isShape (node : Node) : Bool :=
  node.isKeyword ["circle", "ellipse"]

def isExtent (node : Node) : Bool :=
  node.isKeyword
    ["closest-corner", "closest-side", "farthest-corner", "farthest-side"]

def isCircle (node : Node) : Bool :=
  node.isKeyword ["circle"]

def isEllipse (node : Node) : Bool :=
  node.isKeyword ["ellipse"]

/-- A shape and a size that fits it, in either order, or one of the two. -/
def isRadialSize : List Node → Bool
  | [] => true
  | [only] => isShape only || isExtent only || only.isLength
  | [first, second] =>
      (isCircle first && second.isLength) ||
        (first.isLength && isCircle second) ||
        (isExtent first && isShape second) ||
        (isShape first && isExtent second) ||
        (first.isLengthPercentage && second.isLengthPercentage)
  | [first, second, third] =>
      (isEllipse first && second.isLengthPercentage &&
          third.isLengthPercentage) ||
        (first.isLengthPercentage && second.isLengthPercentage &&
          isEllipse third)
  | _ => false

/-- A size, a position, or both. -/
def isRadialDefinition (group : List Node) : Bool :=
  (Placement.read? group).any fun placement =>
    if placement.extent.isEmpty then placement.isPlaced
    else (spacedItems? placement.extent).any isRadialSize

end Gradient

def Node.isGradient (node : Node) : Bool :=
  (node.argsOf? ["linear-gradient", "repeating-linear-gradient"]).any
      (Gradient.hasColorStops Gradient.isLinearDefinition) ||
    (node.argsOf? ["radial-gradient", "repeating-radial-gradient"]).any
      (Gradient.hasColorStops Gradient.isRadialDefinition)

end StyleValue
