import StyleValue.Quantity.Item

/-! Positions, by themselves and after the extent of a figure. -/

namespace StyleValue

namespace Position

def horizontals : List String := ["left", "right", "center"]

def verticals : List String := ["top", "bottom", "center"]

def sides : List String := ["left", "center", "right", "top", "bottom"]

def isOffset (node : Node) : Bool :=
  node.isLengthPercentage || node.isVariable

/-- Two keywords, one for each axis, in either order. -/
def isKeywordPair (first second : Node) : Bool :=
  (first.isKeywordOrVariable horizontals &&
      second.isKeywordOrVariable verticals) ||
    (first.isKeywordOrVariable verticals &&
      second.isKeywordOrVariable horizontals)

/-- A horizontal and a vertical coordinate, in this order. -/
def isCoordinatePair (x y : Node) : Bool :=
  (x.isKeywordOrVariable horizontals || x.isLengthPercentage) &&
    (y.isKeywordOrVariable verticals || y.isLengthPercentage)

/-- Edges to measure from, one for each axis; neither is the center. -/
def isEdgePair (first second : Node) : Bool :=
  ((first.isKeywordOrVariable ["left", "right"] &&
        second.isKeywordOrVariable verticals) ||
      (first.isKeywordOrVariable ["top", "bottom"] &&
        second.isKeywordOrVariable horizontals)) &&
    !second.isKeyword ["center"]

end Position

/-- One side or coordinate, a pair, or two edges with an offset from each. -/
def isPosition : List Node → Bool
  | [only] =>
      only.isKeywordOrVariable Position.sides || only.isLengthPercentage
  | [x, gap, y] =>
      gap.isSpace &&
        (Position.isKeywordPair x y || Position.isCoordinatePair x y)
  | [first, gap, offset, gap', second, gap'', offset'] =>
      gap.isSpace && gap'.isSpace && gap''.isSpace &&
        Position.isEdgePair first second && Position.isOffset offset &&
        Position.isOffset offset'
  | _ => false

def endsInDivider (nodes : List Node) : Bool :=
  nodes.getLast?.any Node.isDivider

def isPositionList (nodes : List Node) : Bool :=
  !endsInDivider nodes && (commaGroups nodes).all isPosition

/-- The extent of a figure, and whether a clause `at <position>` follows it. -/
structure Placement where
  extent : List Node
  isPlaced : Bool

namespace Placement

/-- What stands before and after the first `at` that an item could be. -/
def cutAt? : List Node → Option (List Node × List Node)
  | [] => none
  | node :: rest =>
      if node.isKeyword ["at"] then some ([], rest)
      else match rest with
        | [] => none
        | gap :: rest =>
            (cutAt? rest).map fun cut => (node :: gap :: cut.1, cut.2)

/-- Without an `at` everything is extent. With one, a space stands on either
side that is not empty, and a position follows. -/
def read? (nodes : List Node) : Option Placement :=
  match cutAt? nodes with
  | none => some ⟨nodes, false⟩
  | some (_, []) => none
  | some (before, gap :: position) =>
      if gap.isSpace && isPosition position && before.getLast?.all Node.isSpace
      then some ⟨before.dropLast, true⟩
      else none

end Placement

end StyleValue
