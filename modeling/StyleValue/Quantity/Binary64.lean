import StyleValue.Quantity.Decimal

namespace StyleValue

/-- A binary floating-point number with a 53-bit significand. A finite one is
counted in units of the least positive number, `2 ^ -1074`. -/
inductive Binary64 where
  | finite (negative : Bool) (units : Nat)
  | infinite (negative : Bool)
deriving DecidableEq, Repr

namespace Binary64

/-- The nearest integer to a quotient; a half goes to the even neighbour. -/
def roundQuotient (numerator denominator : Nat) : Nat :=
  let quotient := numerator / denominator
  let excess := 2 * (numerator % denominator)
  if excess < denominator then quotient
  else if denominator < excess then quotient + 1
  else quotient + quotient % 2

/-- Round to the grid of the quotient's binade, or to whole units below it. -/
def roundUnits (numerator denominator : Nat) : Nat :=
  let spacing := Nat.pow 2 ((numerator / denominator).log2 - 52)
  roundQuotient numerator (denominator * spacing) * spacing

def one : Nat := Nat.pow 2 1074

/-- Finite numbers stay below `2 ^ 1024`. -/
def limit : Nat := Nat.pow 2 1024 * one

def ofUnits (negative : Bool) (units : Nat) : Binary64 :=
  if units < limit then .finite negative units else .infinite negative

/-- The nearest number to a decimal, by exact arithmetic. Exponents so large or
so small that no digit matters are settled first. -/
def ofDecimal (decimal : Decimal) : Binary64 :=
  if decimal.digits = 0 then .finite decimal.negative 0
  else match decimal.exponent with
    | .ofNat power =>
        if 1024 ≤ power then .infinite decimal.negative
        else ofUnits decimal.negative
          (roundUnits (decimal.digits * Nat.pow 10 power * one) 1)
    | .negSucc power =>
        if decimal.digits.log2 + 1076 < 3 * (power + 1) then
          .finite decimal.negative 0
        else ofUnits decimal.negative
          (roundUnits (decimal.digits * one) (Nat.pow 10 (power + 1)))

/-- Zero with either sign is not negative. -/
def isNonnegative : Binary64 → Bool
  | .finite negative units => !negative || units == 0
  | .infinite negative => !negative

def isAtMostOne : Binary64 → Bool
  | .finite negative units => negative || units ≤ one
  | .infinite negative => negative

end Binary64

end StyleValue
