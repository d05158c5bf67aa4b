import Mathlib.Algebra.Order.Field.Basic
import Mathlib.Data.Nat.Digits.Defs
import Mathlib.Tactic.FieldSimp
import Mathlib.Tactic.Ring
import StyleValue.Proofs.Quantity.Rounding
import StyleValue.Proofs.Quantity.Scanning

/-! The exact value of a written number, and the decimal that is read from it. -/

namespace StyleValue

namespace Numeral

/-- What digits count in base ten. -/
def natural (digits : List Char) : ℕ :=
  Nat.ofDigits 10 (digits.reverse.map fun c => c.toNat - '0'.toNat)

def signum (text : List Char) : ℤ :=
  if text.head? = some '-' then -1 else 1

def integral (text : List Char) : ℤ :=
  signum text * natural (text.dropWhile isSign)

/-- The digits after the point count tenths, hundredths and so on. -/
def fractional (text : List Char) : ℚ :=
  let whole := text.takeWhile (· != '.')
  let fraction := (text.dropWhile (· != '.')).tail
  natural whole + natural fraction / 10 ^ fraction.length

def value (text : List Char) : ℚ :=
  let unsigned := text.dropWhile isSign
  let mantissa := unsigned.takeWhile fun c => !Decimal.isExponentMark c
  let scale := (unsigned.dropWhile fun c => !Decimal.isExponentMark c).tail
  signum text * fractional mantissa * 10 ^ integral scale

variable {signs rest : List Char}

theorem natural_eq_digitsValue (digits : List Char) :
    natural digits = Decimal.digitsValue digits := by
  rw [natural, Nat.ofDigits_eq_foldr, List.foldr_map, List.foldr_reverse]
  simp only [Decimal.digitsValue, Nat.cast_id, add_comm]

theorem natural_append (whole fraction : List Char) :
    natural (whole ++ fraction) =
      natural whole * 10 ^ fraction.length + natural fraction := by
  rw [natural, List.reverse_append, List.map_append, Nat.ofDigits_append,
    List.length_map, List.length_reverse, add_comm, mul_comm]
  rfl

theorem dropWhile_isSign_append (isSigns : signs ∈ sign.matches')
    (unsigned : ∀ c ∈ rest.head?, isSign c = false) :
    (signs ++ rest).dropWhile isSign = rest := by
  refine dropWhile_append_of_stops ?_ unsigned
  rcases mem_sign_iff.mp isSigns with rfl | ⟨c, isSign, rfl⟩
  · exact nofun
  · exact List.forall_mem_singleton.mpr isSign

theorem signum_append (isSigns : signs ∈ sign.matches')
    (unsigned : ∀ c ∈ rest.head?, isSign c = false) :
    signum (signs ++ rest) = if signs = ['-'] then -1 else 1 := by
  rcases mem_sign_iff.mp isSigns with rfl | ⟨c, isSign, rfl⟩
  · have notMinus : rest.head? ≠ some '-' :=
      fun isMinus => absurd (unsigned '-' isMinus) (by decide)
    rw [List.nil_append, signum, if_neg notMinus, if_neg (by simp)]
  · simp [signum]

end Numeral

namespace Decimal

open Dimension Numeral

variable {text : List Char}

/-- The value of a decimal. -/
def rational (decimal : Decimal) : ℚ :=
  if decimal.negative then -decimal.magnitude else decimal.magnitude

theorem fractional_of_readMantissa? {digits places : ℕ}
    (isRead : readMantissa? text = some (digits, places)) :
    fractional text = digits / 10 ^ places := by
  rcases readMantissa?_eq_some_iff.mp isRead with ⟨isDigits, same⟩ | ⟨whole,
    fraction, isWhole, isFraction, rfl, same⟩
  · obtain ⟨rfl, rfl⟩ := Prod.mk.inj same
    obtain ⟨taken, left⟩ := cut_without_point (mem_digits_iff.mp isDigits).2
    simp [fractional, taken, left, natural_eq_digitsValue, digitsValue]
  · obtain ⟨rfl, rfl⟩ := Prod.mk.inj same
    obtain ⟨taken, left⟩ := cut_at_point isWhole fraction
    simp only [fractional, taken, left, List.tail_cons,
      ← natural_eq_digitsValue, natural_append]
    push_cast
    field_simp

theorem integral_of_readExponent? {power : ℤ}
    (isRead : readExponent? text = some power) : integral text.tail = power := by
  cases text with
  | nil => simpa [readExponent?, integral, natural] using isRead
  | cons mark text =>
      rw [readExponent?_cons, Option.map_eq_some_iff] at isRead
      obtain ⟨value, isValue, rfl⟩ := isRead
      obtain ⟨isDigits, rfl⟩ := readDigits?_eq_some_iff.mp isValue
      obtain ⟨whole, isSigns⟩ := splitSign_isSplit text
      have unsigned := isSign_head?_digits isDigits
      rw [List.tail_cons]
      nth_rewrite 1 [← whole]
      rw [integral, dropWhile_isSign_append isSigns unsigned,
        signum_append isSigns unsigned, natural_eq_digitsValue]
      split
      · rw [neg_one_mul]
      · rw [one_mul]

theorem value_of_parse? {text : String} {decimal : Decimal}
    (isParsed : parse? text = some decimal) :
    value text.toList = decimal.rational := by
  obtain ⟨signs, isSigns, body, scale, whole, starts, ⟨digits, places⟩, power,
    isRead, isScale, rfl⟩ := parse?_eq_some_iff.mp isParsed
  have isMantissa : body ∈ mantissa.matches' :=
    isSome_readMantissa?_iff.mp (Option.isSome_of_eq_some isRead)
  have unsigned := isSign_head?_mantissa isMantissa scale
  obtain ⟨taken, left⟩ := cut_at_mark isMantissa starts
  simp only [value, whole, dropWhile_isSign_append isSigns unsigned, taken, left,
    signum_append isSigns unsigned,
    fractional_of_readMantissa? isRead, integral_of_readExponent? isScale,
    rational, magnitude, beq_iff_eq]
  rw [zpow_sub₀ (by norm_num), zpow_natCast]
  split
  · push_cast
    ring
  · push_cast
    ring

end Decimal

end StyleValue
