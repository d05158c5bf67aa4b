import StyleValue.Name.Call
import StyleValue.Quantity.Word

/-! Arithmetic expressions are checked from left to right. All that is kept is
the text of the last item other than a space, and no text at the start of the
expression and of each bracketed part: an operator needs an item before it. -/

namespace StyleValue

namespace Calc

def isTerm (text : String) : Bool :=
  Quantity.isAngle text || Quantity.isLength text || Quantity.isTime text ||
    Quantity.isInteger text || Quantity.isNumber text ||
    Quantity.isPercentage text

def isOperatorChar (c : Char) : Bool :=
  c == '+' || c == '-' || c == '*' || c == '/'

def isOperator (text : String) : Bool :=
  ["+", "-", "*", "/"].contains text

/-- Terms joined without spaces. A sign joins nothing: it may only stand at the
front. -/
def isCompound (text : String) : Bool :=
  !text.toList.tail.any isSign &&
    !text.toList.getLast?.any isOperatorChar &&
    text.toList.any isOperatorChar

/-- What a word of an expression may be. -/
def isWord (text : String) : Bool :=
  isTerm text || isOperator text || isCompound text

/-- An operator with nothing before it. -/
def isDangling (last text : String) : Bool :=
  last.isEmpty && isOperator text

mutual

/-- The last text after a further item, if the item may stand there. -/
def advance? (last : String) : Node → Option String
  | .word text =>
      if !isDangling last text && isWord text then some text else none
  | .space text => if isDangling last text then none else some last
  | .quoted _ _ _ => none
  | .divider kind _ _ =>
      if isDangling last kind.toChar.toString then none
      else some kind.toChar.toString
  | .call name _ args _ _ =>
      if isDangling last name then none
      else if sameName name "var" then some name
      else if name.isEmpty && !args.isEmpty then
        (advanceAll? "" args).filter fun last => !isOperator last
      else none

def advanceAll? (last : String) : List Node → Option String
  | [] => some last
  | node :: rest =>
      match advance? last node with
      | some last => advanceAll? last rest
      | none => none

end

end Calc

def Node.isCalc (node : Node) : Bool :=
  (node.argsOf? ["calc"]).any fun args =>
    !args.isEmpty &&
      (Calc.advanceAll? "" args).any fun last => !Calc.isOperator last

end StyleValue
