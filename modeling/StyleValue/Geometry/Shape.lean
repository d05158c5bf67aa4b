import StyleValue.Geometry.Position
import StyleValue.Name.Call

namespace StyleValue

namespace Shape

def fillRules : List String := ["nonzero", "evenodd"]

def isRadius (node : Node) : Bool :=
  node.isLengthPercentage || node.isKeyword ["closest-side", "farthest-side"]

/-- All of the radii or none, and a position or none. -/
def isRound (radii : Nat) (args : List Node) : Bool :=
  (Placement.read? args).any fun placement =>
    placement.extent.isEmpty ||
      isTupleOf .space (List.replicate radii isRadius) placement.extent

def isVertex : List Node → Bool
  | [x, gap, y] =>
      x.isLengthPercentage && gap.isSpace && y.isLengthPercentage
  | _ => false

def isFillRule : List Node → Bool
  | [rule] => rule.isKeyword fillRules
  | _ => false

/-- Vertices, after a fill rule or none. -/
def isPolygon (args : List Node) : Bool :=
  match commaGroups args with
  | [] => false
  | first :: rest =>
      if isFillRule first then !rest.isEmpty && rest.all isVertex
      else isVertex first && rest.all isVertex

end Shape

namespace Node

def isBox (node : Node) : Bool :=
  node.isKeyword ["border-box", "padding-box", "content-box"]

def isGeometryBox (node : Node) : Bool :=
  node.isBox ||
    node.isKeyword ["margin-box", "fill-box", "stroke-box", "view-box"] ||
    node.isKeyword ["content", "padding", "border"]

def isBasicShape (node : Node) : Bool :=
  (node.argsOf? ["inset"]).any (isListOf isLengthPercentage .space) ||
    (node.argsOf? ["circle"]).any (Shape.isRound 1) ||
    (node.argsOf? ["ellipse"]).any (Shape.isRound 2) ||
    (node.argsOf? ["polygon"]).any Shape.isPolygon

def isClipSource (node : Node) : Bool :=
  node.isUrl || node.isBasicShape || node.isGeometryBox

end Node

end StyleValue
