import StyleValue.Grammar.Rule
import StyleValue.Text.Symbol
import StyleValue.Tree.Node

namespace StyleValue

namespace Identifier

/-- An identifier starts with no digit, also not after a hyphen, and with
three hyphens if with two. -/
def startsWell : List Char → Bool
  | '-' :: '-' :: '-' :: _ => true
  | '-' :: '-' :: _ => false
  | '-' :: c :: _ => !c.isDigit
  | c :: _ => !c.isDigit
  | [] => true

def isPlain (c : Char) : Bool :=
  c.isAlphanum || c == '-' || c == '_'

/-- A backslash, a `u` in either case or none, and a hexadecimal digit. -/
def startsEscape : List Char → Bool
  | '\\' :: c :: rest =>
      isHexDigit c || ((c == 'u' || c == 'U') && rest.head?.any isHexDigit)
  | _ => false

def hasEscape : List Char → Bool
  | [] => false
  | c :: rest => startsEscape (c :: rest) || hasEscape rest

/-- One escape anywhere lifts the restriction to plain characters. -/
def isValid (text : String) : Bool :=
  startsWell text.toList &&
    (text.toList.all isPlain || hasEscape text.toList)

end Identifier

namespace Node

def isCustomIdentifier (node : Node) : Bool :=
  node.isWordThat Identifier.isValid

/-- A hash and an identifier; a word that falls short says what it lacks. -/
def idVerdict : Node → Verdict
  | .word text =>
      match text.toList with
      | '#' :: name =>
          if Identifier.isValid (String.ofList name) then .accept
          else .reject (.badIdentifier text)
      | _ => .reject (.missingHash text)
  | _ => .mismatch

end Node

end StyleValue
