import StyleValue.Quantity.Binary64
import StyleValue.Quantity.Dimension

namespace StyleValue

namespace Quantity

def lengthUnits : List String :=
  ["em", "ex", "ch", "rem", "vh", "vw", "vmin", "vmax", "px", "q", "mm", "cm",
    "in", "pt", "pc"]

def angleUnits : List String := ["deg", "grad", "rad", "turn"]

def timeUnits : List String := ["s", "ms"]

def resolutionUnits : List String := ["dpi", "dpcm", "dppx"]

/-- Units, unlike keywords, are written in lower case. -/
def hasUnit (units : List String) (text : String) : Bool :=
  (Dimension.wellFormed? text).any fun dimension => units.contains dimension.unit

def isZero (text : String) : Bool :=
  (Dimension.wellFormed? text).any Dimension.isZero

def isInteger (text : String) : Bool :=
  (Dimension.read? text).any fun dimension =>
    dimension.unit.isEmpty && !text.toList.contains '.'

def isNumber (text : String) : Bool :=
  (Decimal.parse? text).isSome

def isPercentage (text : String) : Bool :=
  hasUnit ["%"] text

def isLength (text : String) : Bool :=
  isZero text || hasUnit lengthUnits text

def isAngle (text : String) : Bool :=
  isZero text || hasUnit angleUnits text

def isTime (text : String) : Bool :=
  hasUnit timeUnits text

def isResolution (text : String) : Bool :=
  hasUnit resolutionUnits text

def isMultiplier (text : String) : Bool :=
  hasUnit ["x"] text

/-- A share of the free space, not negative once rounded. -/
def isFlex (text : String) : Bool :=
  (Dimension.wellFormed? text).any fun dimension =>
    dimension.unit == "fr" &&
      (Decimal.parse? dimension.number).any fun decimal =>
        (Binary64.ofDecimal decimal).isNonnegative

/-- A number from zero to one once rounded. -/
def isFraction (text : String) : Bool :=
  (Decimal.parse? text).any fun decimal =>
    (Binary64.ofDecimal decimal).isNonnegative &&
      (Binary64.ofDecimal decimal).isAtMostOne

end Quantity

end StyleValue
