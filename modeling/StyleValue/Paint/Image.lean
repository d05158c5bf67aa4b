import StyleValue.Name.Identifier
import StyleValue.Paint.Gradient

/-! Images may hold images. The recursion marks each argument of a call as an
image or not, and the forms of a call are then read off the marked arguments. -/

namespace StyleValue

namespace Image

/-- An argument, and whether it is an image. -/
structure Argument where
  node : Node
  isImage : Bool

namespace Argument

def isSource (argument : Argument) : Bool :=
  argument.isImage || argument.node.isQuoted

end Argument

/-- A source with a color to fall back on, or one of the two. -/
def isFallback : List Argument → Bool
  | [only] => only.isSource || only.node.isColor
  | [source, comma, color] =>
      source.isSource && comma.node.isComma && color.node.isColor
  | _ => false

/-- A source, not itself a set, and the density it is meant for. -/
def isOption : List Argument → Bool
  | [source, gap, density] =>
      source.isSource && !source.node.isCallTo ["image-set"] &&
        gap.node.isSpace &&
        (density.node.isResolution || density.node.isMultiplier)
  | _ => false

def isSet (arguments : List Argument) : Bool :=
  (groupsBy (·.node.isComma) arguments).all isOption

def isFadeOperand (argument : Argument) : Bool :=
  argument.node.isPercentage || argument.isImage

def isFadeEnd (argument : Argument) : Bool :=
  argument.isImage || argument.node.isColor

/-- The first, third and fifth argument have to fit, as far as there are any;
others are not looked at. -/
def isCrossFade (arguments : List Argument) : Bool :=
  arguments[0]?.any isFadeOperand && arguments[2]?.all isFadeOperand &&
    arguments[4]?.all isFadeEnd

def elementVerdict : List Argument → Verdict
  | [id] => id.node.idVerdict
  | _ => .mismatch

def callVerdict (name : String) (arguments : List Argument)
    (isPlain : Bool) : Verdict :=
  if sameName name "element" then elementVerdict arguments
  else .ofBool <|
    isPlain ||
      (sameName name "image" && isFallback arguments) ||
      (sameName name "image-set" && isSet arguments) ||
      (sameName name "cross-fade" && isCrossFade arguments)

end Image

mutual

/-- Whether an item is an image. A malformed reference to an element says what
is wrong with it. -/
def Node.imageVerdict : Node → Verdict
  | .call name before args after closed =>
      let node := Node.call name before args after closed
      Image.callVerdict name (Image.markArguments args)
        (node.isUrl || node.isGradient)
  | _ => .mismatch

def Image.markArguments : List Node → List Image.Argument
  | [] => []
  | node :: rest =>
      ⟨node, node.imageVerdict.isAccept⟩ :: Image.markArguments rest

end

def Node.isImage (node : Node) : Bool :=
  node.imageVerdict.isAccept

theorem Image.markArguments_eq_map (nodes : List Node) :
    Image.markArguments nodes = nodes.map fun node => ⟨node, node.isImage⟩ := by
  induction nodes with
  | nil => rfl
  | cons node rest ih => simp [Image.markArguments, Node.isImage, ih]

end StyleValue
