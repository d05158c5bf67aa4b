import StyleValue.Paint.Color

/-! Shadows, and filters: a drop shadow is one of them. -/

namespace StyleValue

/-- What a kind of shadow may hold. -/
structure ShadowStyle where
  maxLengths : Nat
  allowsInset : Bool

namespace ShadowStyle

def text : ShadowStyle := ⟨3, false⟩

def box : ShadowStyle := ⟨4, true⟩

/-- All lengths, a color and perhaps `inset`, with a gap between neighbours. -/
def maxNodes (style : ShadowStyle) : Nat :=
  2 * (style.maxLengths + 1 + style.allowsInset.toNat) - 1

end ShadowStyle

/-- What has been read of a shadow. -/
structure ShadowParts where
  lengths : Nat := 0
  hasColor : Bool := false
  hasInset : Bool := false
  hasVariable : Bool := false

namespace ShadowParts

/-- Read a further item, if it may follow. A shadow that opens with a length
has no length after its color. -/
def add? (style : ShadowStyle) (opensWithLength : Bool) (parts : ShadowParts)
    (node : Node) : Option ShadowParts :=
  if node.isLength then
    if 0 < parts.lengths && parts.hasColor && opensWithLength then none
    else if style.maxLengths < parts.lengths + 1 then none
    else some { parts with lengths := parts.lengths + 1 }
  else if node.isColor then
    if parts.hasColor then none else some { parts with hasColor := true }
  else if node.isVariable then some { parts with hasVariable := true }
  else if style.allowsInset && !parts.hasInset && node.isKeyword ["inset"] then
    some { parts with hasInset := true }
  else none

def addAll? (style : ShadowStyle) (opensWithLength : Bool)
    (parts : ShadowParts) : List Node → Option ShadowParts
  | [] => some parts
  | [node] => parts.add? style opensWithLength node
  | node :: gap :: rest =>
      match parts.add? style opensWithLength node with
      | none => none
      | some parts =>
          if gap.isSpace then parts.addAll? style opensWithLength rest
          else none

end ShadowParts

/-- Two lengths at least, unless a variable may stand for them. -/
def isShadow (style : ShadowStyle) (group : List Node) : Bool :=
  let opensWithLength := group.head?.any Node.isLength
  (ShadowParts.addAll? style opensWithLength {} group).any fun parts =>
    (parts.hasVariable || 2 ≤ parts.lengths) &&
      group.length ≤ style.maxNodes

def isShadowList (style : ShadowStyle) (nodes : List Node) : Bool :=
  (commaGroups nodes).all (isShadow style)

namespace Filter

def amountNames : List String :=
  ["brightness", "contrast", "grayscale", "invert", "opacity", "sepia",
    "saturate"]

def signatures : List Signature :=
  [ ⟨["blur"], [Node.isLength]⟩,
    ⟨["hue-rotate"], [Node.isAngle]⟩,
    ⟨amountNames, [fun node => node.isNumber || node.isPercentage]⟩ ]

/-- Two or three lengths, and a color or none after them. -/
def isDropShadow (args : List Node) : Bool :=
  match spacedItems? args with
  | some [x, y] => x.isLength && y.isLength
  | some [x, y, third] =>
      x.isLength && y.isLength && (third.isLength || third.isColor)
  | some [x, y, blur, color] =>
      x.isLength && y.isLength && (blur.isLength || blur.isColor) &&
        color.isColor && !blur.isColor
  | _ => false

end Filter

def Node.isFilterFunction (node : Node) : Bool :=
  Filter.signatures.any (·.fits node) ||
    (node.argsOf? ["drop-shadow"]).any Filter.isDropShadow ||
    node.isUrl || node.isVariable

end StyleValue
