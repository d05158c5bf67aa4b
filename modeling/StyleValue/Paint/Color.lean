import StyleValue.Paint.NamedColor
import StyleValue.Quantity.Item

namespace StyleValue

namespace Color

/-- A hash and one or two hexadecimal digits for each of three or four
channels. -/
def isHex (text : String) : Bool :=
  match text.toList with
  | '#' :: digits =>
      [3, 4, 6, 8].contains digits.length && digits.all isHexDigit
  | _ => false

def isChannel (node : Node) : Bool :=
  node.isInteger || node.isPercentage

def signatures : List Signature :=
  [ ⟨["rgb"], [isChannel, isChannel, isChannel]⟩,
    ⟨["rgba"], [isChannel, isChannel, isChannel, Node.isNumber]⟩,
    ⟨["hsl"], [Node.isNumber, Node.isPercentage, Node.isPercentage]⟩,
    ⟨["hsla"], [Node.isNumber, Node.isPercentage, Node.isPercentage,
      Node.isNumber]⟩ ]

end Color

namespace Node

def isHexColor (node : Node) : Bool :=
  node.isWordThat Color.isHex

def isNamedColor (node : Node) : Bool :=
  node.isWordThat fun name => (Rgb.ofName? name).isSome

def isColor (node : Node) : Bool :=
  node.isHexColor || node.isNamedColor ||
    node.isKeyword ["transparent", "currentcolor"] ||
    Color.signatures.any (·.fits node)

end Node

end StyleValue
