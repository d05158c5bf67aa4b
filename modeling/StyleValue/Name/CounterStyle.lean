import StyleValue.Name.Identifier
import StyleValue.Paint.Image

namespace StyleValue

namespace CounterStyle

def predefined : List String :=
  ["disc", "circle", "square", "decimal", "cjk-decimal", "decimal-leading-zero",
    "lower-roman", "upper-roman", "lower-greek", "lower-alpha", "lower-latin",
    "upper-alpha", "upper-latin", "arabic-indic", "-moz-arabic-indic",
    "armenian", "bengali", "-moz-bengali", "cambodian", "cjk-earthly-branch",
    "-moz-cjk-earthly-branch", "cjk-heavenly-stem", "-moz-cjk-heavenly-stem",
    "cjk-ideographic", "devanagari", "-moz-devanagari", "ethiopic-numeric",
    "georgian", "gujarati", "-moz-gujarati", "gurmukhi", "-moz-gurmukhi",
    "hebrew", "hiragana", "hiragana-iroha", "japanese-formal",
    "japanese-informal", "kannada", "-moz-kannada", "katakana",
    "katakana-iroha", "khmer", "-moz-khmer", "korean-hangul-formal",
    "korean-hanja-formal", "korean-hanja-informal", "lao", "-moz-lao",
    "lower-armenian", "malayalam", "-moz-malayalam", "mongolian", "myanmar",
    "-moz-myanmar", "oriya", "-moz-oriya", "persian", "-moz-persian",
    "simp-chinese-formal", "simp-chinese-informal", "tamil", "-moz-tamil",
    "telugu", "-moz-telugu", "thai", "-moz-thai", "tibetan",
    "trad-chinese-formal", "trad-chinese-informal", "upper-armenian",
    "disclosure-open", "disclosure-closed", "-moz-ethiopic-halehame",
    "-moz-ethiopic-halehame-am", "ethiopic-halehame-ti-er",
    "-moz-ethiopic-halehame-ti-er", "ethiopic-halehame-ti-et",
    "-moz-ethiopic-halehame-ti-et", "hangul", "-moz-hangul", "hangul-consonant",
    "-moz-hangul-consonant", "urdu", "-moz-urdu"]

def symbolSystems : List String :=
  ["cyclic", "numeric", "alphabetic", "symbolic", "fixed"]

def isSymbol (node : Node) : Bool :=
  node.isQuoted || node.isImage

/-- One or more symbols, after the name of a system or none. -/
def isSymbols (args : List Node) : Bool :=
  match spacedItems? args with
  | some (first :: rest) =>
      (first.isKeyword symbolSystems || isSymbol first) &&
        rest.all isSymbol && (first :: rest).any isSymbol
  | _ => false

end CounterStyle

def Node.isCounterStyle (node : Node) : Bool :=
  node.isCustomIdentifier || node.isKeyword CounterStyle.predefined ||
    (node.argsOf? ["symbols"]).any CounterStyle.isSymbols

end StyleValue
