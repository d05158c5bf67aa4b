namespace StyleValue

inductive Divider where
  | comma
  | slash
  | colon
deriving DecidableEq, Repr

namespace Divider

def toChar : Divider → Char
  | .comma => ','
  | .slash => '/'
  | .colon => ':'

def ofChar? : Char → Option Divider
  | ',' => some .comma
  | '/' => some .slash
  | ':' => some .colon
  | _ => none

@[simp] theorem ofChar?_toChar (kind : Divider) :
    ofChar? kind.toChar = some kind := by
  cases kind <;> rfl

end Divider

/-- One item of a declared value. Blanks next to a divider or to the brackets
of a call belong to that item; all others are a space of their own. A call
without a name is a bracketed group. -/
inductive Node where
  | word (text : String)
  | space (text : String)
  | quoted (quote : Char) (value : String) (closed : Bool)
  | divider (kind : Divider) (before after : String)
  | call (name before : String) (args : List Node) (after : String)
      (closed : Bool)
deriving Repr

namespace Node

/-- The text that names the item: a call is known by its name alone. -/
def text : Node → String
  | .word text => text
  | .space text => text
  | .quoted _ value _ => value
  | .divider kind _ _ => kind.toChar.toString
  | .call name _ _ _ _ => name

def word? : Node → Option String
  | .word text => some text
  | _ => none

def args? : Node → Option (List Node)
  | .call _ _ args _ _ => some args
  | _ => none

def isSpace : Node → Bool
  | .space _ => true
  | _ => false

def isQuoted : Node → Bool
  | .quoted _ _ _ => true
  | _ => false

def isDivider : Node → Bool
  | .divider _ _ _ => true
  | _ => false

def isDividerOf (kind : Divider) : Node → Bool
  | .divider found _ _ => found == kind
  | _ => false

def isComma (node : Node) : Bool :=
  node.isDividerOf .comma

def isSlash (node : Node) : Bool :=
  node.isDividerOf .slash

def isColon (node : Node) : Bool :=
  node.isDividerOf .colon

/-- A word whose text passes `test`. -/
def isWordThat (test : String → Bool) : Node → Bool
  | .word text => test text
  | _ => false

end Node

mutual

/-- The text an item was read from. -/
def Node.render : Node → String
  | .word text => text
  | .space text => text
  | .quoted quote value closed =>
      quote.toString ++ value ++ (if closed then quote.toString else "")
  | .divider kind before after => before ++ kind.toChar.toString ++ after
  | .call name before args after closed =>
      name ++ "(" ++ before ++ render args ++ after ++
        (if closed then ")" else "")

def render : List Node → String
  | [] => ""
  | node :: rest => node.render ++ render rest

end

end StyleValue
