import StyleValue.Text.Symbol

namespace StyleValue

/-- A decimal number: `digits * 10 ^ exponent`, negated if `negative`. -/
structure Decimal where
  negative : Bool
  digits : Nat
  exponent : Int
deriving DecidableEq, Repr

namespace Decimal

/-- Whether a sign makes the number negative, and what follows the sign. -/
def readSign : List Char → Bool × List Char
  | '-' :: rest => (true, rest)
  | '+' :: rest => (false, rest)
  | text => (false, text)

def digitsValue (digits : List Char) : Nat :=
  digits.foldl (fun value c => 10 * value + (c.toNat - '0'.toNat)) 0

def readDigits? (text : List Char) : Option Nat :=
  if !text.isEmpty && text.all Char.isDigit then some (digitsValue text)
  else none

/-- The digits of a number without its point, and how many follow the point. A
point needs a digit after it, and none before it. -/
def readMantissa? (text : List Char) : Option (Nat × Nat) :=
  let whole := text.takeWhile (· != '.')
  match text.dropWhile (· != '.') with
  | [] => (readDigits? whole).map fun digits => (digits, 0)
  | _ :: fraction =>
      if fraction.isEmpty then none
      else (readDigits? (whole ++ fraction)).map fun digits =>
        (digits, fraction.length)

/-- What follows the mantissa: nothing, or a mark and a signed integer. -/
def readExponent? : List Char → Option Int
  | [] => some 0
  | _ :: text =>
      let signed := readSign text
      (readDigits? signed.2).map fun digits =>
        if signed.1 then -(digits : Int) else digits

def isExponentMark (c : Char) : Bool :=
  c == 'e' || c == 'E'

def parse? (text : String) : Option Decimal :=
  let signed := readSign text.toList
  let mantissa := signed.2.takeWhile fun c => !isExponentMark c
  let scale := signed.2.dropWhile fun c => !isExponentMark c
  match readMantissa? mantissa, readExponent? scale with
  | some (digits, places), some exponent =>
      some ⟨signed.1, digits, exponent - places⟩
  | _, _ => none

end Decimal

end StyleValue
