import StyleValue.Property.Flex
import StyleValue.Property.Interface
import StyleValue.Property.Layout
import StyleValue.Property.Motion
import StyleValue.Property.Surface
import StyleValue.Property.Typography
import StyleValue.Tree.Parse

/-! The catalogue of properties, and what it has to say of a declaration. -/

namespace StyleValue

namespace Property

def families : List Family :=
  layout ++ flex ++ surface ++ typography ++ motion ++ interface

/-- The grammar of a property, by its exact name. -/
def grammar? (name : String) : Option Grammar :=
  (families.find? fun family => family.members.contains name).map
    Family.grammar

/-- All names, in order. -/
def names : List String :=
  (families.flatMap Family.members).mergeSort fun first second =>
    first ≤ second

def namesStartingWith (start : String) : List String :=
  names.filter fun name => start.toList.isPrefixOf name.toList

end Property

/-- Why a value is not one that the property takes. -/
inductive Cause where
  | missing
  | unsuitable (value property : String)
  | fault (fault : Fault)
deriving DecidableEq, Repr

def Cause.message : Cause → String
  | .missing => "Expected a value to be passed."
  | .unsuitable value property =>
      "\"" ++ value ++ "\" is not a valid value for \"" ++ property ++ "\"."
  | .fault mistake => mistake.message

/-- What is known of a declaration. -/
inductive Validity where
  | valid
  | invalid (cause : Cause)
  | unknown (property : String)
deriving DecidableEq, Repr

namespace Validity

def message? : Validity → Option String
  | .valid => none
  | .invalid cause => some cause.message
  | .unknown property =>
      some ("\"" ++ property ++ "\" is not a recognised property.")

def isValid : Validity → Bool
  | .valid => true
  | _ => false

end Validity

/-- A value that every property takes, whether it is known or not: a global
keyword or a variable by itself. -/
def isUniversal : List Node → Bool
  | [node] => node.isGlobalKeyword || node.isVariable
  | _ => false

def validateNodes (property : String) (nodes : List Node) : Validity :=
  if isUniversal nodes then .valid
  else match Property.grammar? property with
    | none => .unknown property
    | some grammar =>
        if nodes.isEmpty then .invalid .missing
        else match grammar.check nodes with
          | .accept => .valid
          | .mismatch => .invalid (.unsuitable (render nodes) property)
          | .reject fault => .invalid (.fault fault)

/-- Check a declaration, given as the name of a property and the text of its
value. -/
def validate (property text : String) : Validity :=
  validateNodes property (parse text)

/-- What each property, in order of the names, has to say to a value. -/
def survey (nodes : List Node) : List (String × Validity) :=
  Property.names.map fun property => (property, validateNodes property nodes)

end StyleValue
