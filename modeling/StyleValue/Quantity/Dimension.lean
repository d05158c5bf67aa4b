import StyleValue.Text.Symbol

namespace StyleValue

/-- A number and the unit written after it. -/
structure Dimension where
  number : String
  unit : String
deriving DecidableEq, Repr

namespace Dimension

def splitSign : List Char → List Char × List Char
  | c :: rest => if isSign c then ([c], rest) else ([], c :: rest)
  | [] => ([], [])

/-- Digits with at most one point among them, as long as they go. -/
def splitDigits (text : List Char) : List Char × List Char :=
  let whole := text.takeWhile Char.isDigit
  match text.dropWhile Char.isDigit with
  | '.' :: rest =>
      (whole ++ '.' :: rest.takeWhile Char.isDigit,
        rest.dropWhile Char.isDigit)
  | rest => (whole, rest)

/-- The longest numeric start of a text, which has to hold a digit. -/
def read? (text : String) : Option Dimension :=
  let signed := splitSign text.toList
  let digits := splitDigits signed.2
  if digits.1.any Char.isDigit then
    some ⟨String.ofList (signed.1 ++ digits.1), String.ofList digits.2⟩
  else none

/-- The number does not end in a point, and the unit has none. -/
def isWellFormed (dimension : Dimension) : Bool :=
  dimension.number.toList.getLast? != some '.' &&
    !dimension.unit.toList.contains '.'

def isZero (dimension : Dimension) : Bool :=
  dimension.number == "0" && dimension.unit.isEmpty

def wellFormed? (text : String) : Option Dimension :=
  (read? text).filter isWellFormed

end Dimension

end StyleValue
