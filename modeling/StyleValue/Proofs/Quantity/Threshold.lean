import StyleValue.Proofs.Quantity.Value
import StyleValue.Quantity.Item

/-! Where rounding to zero and rounding to one end, and so which texts pass the
tests on rounded numbers. -/

namespace StyleValue

namespace Binary64

/-- The number is the nearest to the target, or infinite if that is too large.
It has the sign of the target unless that is zero. -/
def IsRounding (target : ℚ) (number : Binary64) : Prop :=
  ∃ negative units, IsNearest (|target| * 2 ^ scale) units ∧
    number = ofUnits negative units ∧
    (target ≠ 0 → (negative = true ↔ target < 0))

variable {target : ℚ} {units low high : ℕ}

/-! Neighbours. -/

/-- No representable number lies between the two. -/
structure AreNeighbours (low high : ℕ) : Prop where
  lt : low < high
  low_representable : IsRepresentable low
  high_representable : IsRepresentable high
  apart : ∀ other, IsRepresentable other → low < other → high ≤ other

/-- Below the midpoint of two neighbours the nearest is the lower one or less,
and at the midpoint too if the other one is odd. -/
theorem IsNearest.le_iff (isNearest : IsNearest target units)
    (areNeighbours : AreNeighbours low high) (isOdd : ¬ IsEven high) :
    units ≤ low ↔ 2 * target ≤ low + high := by
  have ordered : (low : ℚ) < high := by exact_mod_cast areNeighbours.lt
  constructor
  · intro isLow
    by_contra above
    have notAbove : (units : ℚ) ≤ low := by exact_mod_cast isLow
    have nearer : |target - high| < |target - units| := by
      rw [abs_of_pos (by linarith : 0 < target - units), abs_lt]
      constructor <;> linarith
    exact absurd (isNearest.nearest high areNeighbours.high_representable)
      (not_le.mpr nearer)
  · intro below
    by_contra isHigh
    have notBelow : (high : ℚ) ≤ units := by
      exact_mod_cast areNeighbours.apart units isNearest.representable
        (not_le.mp isHigh)
    have asNear : |target - low| ≤ high - target := by
      rw [abs_le]
      constructor <;> linarith
    have nearest := isNearest.nearest low areNeighbours.low_representable
    rw [abs_sub_comm, abs_of_pos (by linarith : 0 < units - target)] at nearest
    -- Only a tie is left, and it would have made the odd neighbour even.
    have isTie : (units : ℚ) = high := by linarith
    have isHighUnits : units = high := by exact_mod_cast isTie
    subst isHighUnits
    refine isOdd (isNearest.even low areNeighbours.low_representable ?_ ?_)
    · exact areNeighbours.lt.ne
    · rw [abs_sub_comm target units,
        abs_of_pos (by linarith : 0 < units - target)]
      exact le_antisymm asNear nearest

theorem areNeighbours_zero : AreNeighbours 0 1 where
  lt := one_pos
  low_representable := ⟨0, 0, ⟨by norm_num, .inl rfl⟩, rfl⟩
  high_representable := ⟨1, 0, ⟨by norm_num, .inl rfl⟩, rfl⟩
  apart := fun _ _ positive => positive

theorem not_isEven_one : ¬ IsEven 1 := by
  rintro ⟨significand, power, -, isEven, same⟩
  obtain ⟨rfl, -⟩ := mul_eq_one.mp same.symm
  exact Nat.not_even_one isEven

theorem areNeighbours_pow (power : ℕ) :
    AreNeighbours (2 ^ (power + 52)) (2 ^ (power + 52) + 2 ^ power) where
  lt := Nat.lt_add_of_pos_right (Nat.two_pow_pos power)
  low_representable := isRepresentable_pow (Nat.le_add_left 52 power)
  high_representable :=
    ⟨2 ^ 52 + 1, power, ⟨by norm_num, .inr (by norm_num)⟩, by ring⟩
  apart := by
    intro other representable above
    obtain ⟨steps, rfl⟩ := representable.dvd (.inr above.le)
    rw [pow_add] at above ⊢
    have further : 2 ^ 52 + 1 ≤ steps := Nat.lt_of_mul_lt_mul_left above
    calc
      2 ^ power * 2 ^ 52 + 2 ^ power = 2 ^ power * (2 ^ 52 + 1) := by ring
      _ ≤ 2 ^ power * steps := Nat.mul_le_mul_left _ further

theorem not_isEven_pow (power : ℕ) :
    ¬ IsEven (2 ^ (power + 52) + 2 ^ power) := by
  rintro ⟨significand, exponent, ⟨short, -⟩, ⟨half, rfl⟩, same⟩
  have factored : 2 ^ (power + 52) + 2 ^ power = 2 ^ power * (2 ^ 52 + 1) := by
    ring
  rw [factored] at same
  rcases Nat.lt_or_ge exponent power with isLess | isGreater
  · -- The significand would need more than 53 bits.
    obtain ⟨more, rfl⟩ := Nat.exists_eq_add_of_lt isLess
    have isWide : half + half = 2 ^ (more + 1) * (2 ^ 52 + 1) := by
      refine Nat.eq_of_mul_eq_mul_right (Nat.two_pow_pos exponent) ?_
      rw [← same]
      ring
    have grows : 2 ≤ 2 ^ (more + 1) := by
      rw [pow_succ]
      exact Nat.le_mul_of_pos_left 2 (Nat.two_pow_pos more)
    have := Nat.mul_le_mul_right (2 ^ 52 + 1) grows
    omega
  · -- The odd factor would be even.
    obtain ⟨more, rfl⟩ := Nat.exists_eq_add_of_le isGreater
    have isOdd : 2 ^ 52 + 1 = 2 * (half * 2 ^ more) := by
      refine Nat.eq_of_mul_eq_mul_left (Nat.two_pow_pos power) ?_
      rw [same]
      ring
    omega

/-! The tests on rounded numbers. -/

theorem one_lt_limit : one < limit := by
  rw [limit_eq, one_eq]
  exact Nat.pow_lt_pow_right one_lt_two (by rw [reach_eq]; omega)

theorem isNonnegative_ofUnits (negative : Bool) (units : ℕ) :
    (ofUnits negative units).isNonnegative = true ↔
      negative = false ∨ units = 0 := by
  have positive := limit_pos
  rw [ofUnits]
  split
  next => simp [isNonnegative]
  next large =>
    have nonzero : units ≠ 0 := by omega
    simp [isNonnegative, nonzero]

theorem isAtMostOne_ofUnits (negative : Bool) (units : ℕ) :
    (ofUnits negative units).isAtMostOne = true ↔
      negative = true ∨ units ≤ one := by
  have isLess := one_lt_limit
  rw [ofUnits]
  split
  next => simp [isAtMostOne]
  next large =>
    have notAtMost : ¬ units ≤ one := by omega
    simp [isAtMostOne, notAtMost]

/-- All magnitudes up to half of the least positive number round to zero. -/
theorem units_eq_zero_iff {magnitude : ℚ}
    (isNearest : IsNearest (magnitude * 2 ^ scale) units) :
    units = 0 ↔ magnitude ≤ 2 ^ (-1075 : ℤ) := by
  have positive : (0 : ℚ) < 2 ^ scale := pow_pos two_pos scale
  have halfUnit : (2 : ℚ) ^ (-1075 : ℤ) = 1 / (2 * 2 ^ scale) := by
    rw [← pow_succ', ← zpow_natCast, one_div, ← zpow_neg, scale_eq]
    rfl
  rw [← Nat.le_zero, isNearest.le_iff areNeighbours_zero not_isEven_one,
    halfUnit, le_div_iff₀ (mul_pos two_pos positive), Nat.cast_zero, Nat.cast_one,
    zero_add, mul_left_comm]

/-- All magnitudes up to the midpoint of one and its upper neighbour round to one
or less. -/
theorem units_le_one_iff {magnitude : ℚ}
    (isNearest : IsNearest (magnitude * 2 ^ scale) units) :
    units ≤ one ↔ magnitude ≤ 1 + 2 ^ (-53 : ℤ) := by
  obtain ⟨power, isScale⟩ : ∃ power, scale = power + 52 := ⟨1022, rfl⟩
  rw [isScale] at isNearest
  have positive : (0 : ℚ) < 2 ^ power := by positivity
  have twice : 2 * (magnitude * 2 ^ (power + 52)) =
      2 ^ 53 * magnitude * 2 ^ power := by ring
  have sum : ((2 ^ (power + 52) : ℕ) : ℚ) + (2 ^ (power + 52) + 2 ^ power : ℕ) =
      (2 ^ 53 + 1) * 2 ^ power := by
    push_cast
    ring
  rw [one_eq, isScale,
    isNearest.le_iff (areNeighbours_pow power) (not_isEven_pow power), twice, sum,
    mul_le_mul_iff_of_pos_right positive, ← le_div_iff₀' (by norm_num)]
  norm_num

section

variable {number : Binary64}

theorem IsRounding.isNonnegative_iff (isRounding : IsRounding target number) :
    number.isNonnegative = true ↔ -(2 : ℚ) ^ (-1075 : ℤ) ≤ target := by
  obtain ⟨negative, units, isNearest, isUnits, sameSign⟩ := isRounding
  have positive : (0 : ℚ) < 2 ^ (-1075 : ℤ) := zpow_pos two_pos _
  rw [isUnits, isNonnegative_ofUnits, units_eq_zero_iff isNearest]
  generalize (2 : ℚ) ^ (-1075 : ℤ) = bound at positive
  rcases lt_trichotomy target 0 with isNegative | rfl | isPositive
  · have isSigned := (sameSign isNegative.ne).mpr isNegative
    rw [isSigned, abs_of_neg isNegative, neg_le]
    simp
  · rw [abs_zero]
    exact ⟨fun _ => by linarith, fun _ => .inr positive.le⟩
  · have isUnsigned : negative = false :=
      Bool.eq_false_iff.mpr (mt (sameSign isPositive.ne').mp isPositive.not_gt)
    exact ⟨fun _ => by linarith, fun _ => .inl isUnsigned⟩

theorem IsRounding.isAtMostOne_iff (isRounding : IsRounding target number) :
    number.isAtMostOne = true ↔ target ≤ 1 + 2 ^ (-53 : ℤ) := by
  obtain ⟨negative, units, isNearest, isUnits, sameSign⟩ := isRounding
  have positive : (0 : ℚ) < 1 + 2 ^ (-53 : ℤ) := by positivity
  rw [isUnits, isAtMostOne_ofUnits, units_le_one_iff isNearest]
  generalize (1 : ℚ) + 2 ^ (-53 : ℤ) = bound at positive
  rcases lt_trichotomy target 0 with isNegative | rfl | isPositive
  · have isSigned := (sameSign isNegative.ne).mpr isNegative
    exact ⟨fun _ => by linarith, fun _ => .inl isSigned⟩
  · rw [abs_zero]
    exact ⟨fun _ => positive.le, .inr⟩
  · have isUnsigned : negative = false :=
      Bool.eq_false_iff.mpr (mt (sameSign isPositive.ne').mp isPositive.not_gt)
    rw [isUnsigned, abs_of_pos isPositive]
    simp

end

theorem isRounding_ofDecimal (decimal : Decimal) :
    IsRounding decimal.rational (ofDecimal decimal) := by
  obtain ⟨units, isNearest, same⟩ := isNearest_ofDecimal decimal
  have nonneg := decimal.magnitude_nonneg
  refine ⟨decimal.negative, units, ?_, same, fun nonzero => ?_⟩
  · rw [Decimal.rational]
    split
    · rwa [abs_neg, abs_of_nonneg nonneg]
    · rwa [abs_of_nonneg nonneg]
  · rw [Decimal.rational] at nonzero ⊢
    split at nonzero
    next isNegative =>
      have positive := nonneg.lt_of_ne' (neg_ne_zero.mp nonzero)
      simp [isNegative, positive]
    next notNegative => simp [notNegative, nonneg]

end Binary64

namespace Quantity

variable {text : String}

/-- The conversion of a number never fails, and rounds its value correctly. -/
theorem exists_isRounding (isNumber : text.toList ∈ Numeral.number.matches') :
    ∃ decimal, Decimal.parse? text = some decimal ∧
      Binary64.IsRounding (Numeral.value text.toList)
        (Binary64.ofDecimal decimal) := by
  obtain ⟨decimal, isParsed⟩ :=
    Option.isSome_iff_exists.mp (Decimal.isSome_parse?_iff.mpr isNumber)
  refine ⟨decimal, isParsed, ?_⟩
  rw [Decimal.value_of_parse? isParsed]
  exact Binary64.isRounding_ofDecimal decimal

theorem isFraction_iff :
    isFraction text = true ↔
      isNumber text = true ∧
        -(2 : ℚ) ^ (-1075 : ℤ) ≤ Numeral.value text.toList ∧
        Numeral.value text.toList ≤ 1 + 2 ^ (-53 : ℤ) := by
  by_cases isNumeric : isNumber text = true
  · obtain ⟨decimal, isParsed, isRounding⟩ :=
      exists_isRounding (isNumber_iff.mp isNumeric)
    rw [isFraction, isParsed, Option.any_some, Bool.and_eq_true_iff,
      isRounding.isNonnegative_iff, isRounding.isAtMostOne_iff,
      and_iff_right isNumeric]
  · have isUnread : Decimal.parse? text = none := by
      simpa [isNumber] using isNumeric
    simp [isFraction, isUnread, isNumeric]

theorem any_isNonnegative_iff (isNumber : text.toList ∈ Numeral.number.matches') :
    ((Decimal.parse? text).any fun decimal =>
        (Binary64.ofDecimal decimal).isNonnegative) = true ↔
      -(2 : ℚ) ^ (-1075 : ℤ) ≤ Numeral.value text.toList := by
  obtain ⟨decimal, isParsed, isRounding⟩ := exists_isRounding isNumber
  rw [isParsed, Option.any_some, isRounding.isNonnegative_iff]

theorem isFlex_iff :
    isFlex text = true ↔
      ∃ number ∈ Numeral.decimal.matches',
        text.toList = number ++ "fr".toList ∧
        -(2 : ℚ) ^ (-1075 : ℤ) ≤ Numeral.value number := by
  rw [isFlex, Option.any_eq_true]
  simp only [Bool.and_eq_true, beq_iff_eq, Dimension.wellFormed?_eq_some_iff]
  constructor
  · rintro ⟨dimension, ⟨whole, isDecimal, -⟩, isUnit, passed⟩
    rw [isUnit] at whole
    have isNumber := Numeral.mem_number_of_decimal isDecimal
    exact ⟨_, isDecimal, whole, (any_isNonnegative_iff isNumber).mp passed⟩
  · rintro ⟨number, isDecimal, whole, above⟩
    have notDigit : ∀ c ∈ "fr".toList.head?, c.isDigit = false := by
      rintro c ⟨⟩
      rfl
    have noPoint : '.' ∉ "fr".toList := by decide +kernel
    rw [← String.toList_ofList (l := number)] at whole isDecimal above
    have isNumber := Numeral.mem_number_of_decimal isDecimal
    exact ⟨⟨String.ofList number, "fr"⟩, ⟨whole, isDecimal, notDigit, noPoint⟩,
      rfl, (any_isNonnegative_iff isNumber).mpr above⟩

/-- The tests on rounded numbers, as tests on the values that are written: the
conversion of what they scan never fails, and rounds the value correctly. -/
theorem ranges_of_word (text : String) :
    ((Node.word text).isFraction = true ↔
      isNumber text = true ∧
        -(2 : ℚ) ^ (-1075 : ℤ) ≤ Numeral.value text.toList ∧
        Numeral.value text.toList ≤ 1 + 2 ^ (-53 : ℤ)) ∧
    ((Node.word text).isFlex = true ↔
      ∃ number ∈ Numeral.decimal.matches',
        text.toList = number ++ "fr".toList ∧
        -(2 : ℚ) ^ (-1075 : ℤ) ≤ Numeral.value number) ∧
    (text.toList ∈ Numeral.number.matches' →
      ∃ decimal, Decimal.parse? text = some decimal ∧
        Binary64.IsRounding (Numeral.value text.toList)
          (Binary64.ofDecimal decimal)) ∧
    (∀ dimension, Dimension.wellFormed? text = some dimension →
      ∃ decimal, Decimal.parse? dimension.number = some decimal ∧
        Binary64.IsRounding (Numeral.value dimension.number.toList)
          (Binary64.ofDecimal decimal)) := by
  refine ⟨isFraction_iff, isFlex_iff, exists_isRounding, ?_⟩
  intro dimension isRead
  obtain ⟨-, isDecimal, -⟩ := Dimension.wellFormed?_eq_some_iff.mp isRead
  exact exists_isRounding (Numeral.mem_number_of_decimal isDecimal)

/-- A number that rounds to zero, which as a dimension has a unit. -/
theorem ranges_of_word_ex :
    "-1e-400".toList ∈ Numeral.number.matches' ∧
    Dimension.wellFormed? "-1e-400" = some ⟨"-1", "e-400"⟩ ∧
    (∃ decimal, Decimal.parse? "-1e-400" = some decimal ∧
      Binary64.IsRounding (Numeral.value "-1e-400".toList)
        (Binary64.ofDecimal decimal)) ∧
    ∃ decimal, Decimal.parse? "-1" = some decimal ∧
      Binary64.IsRounding (Numeral.value "-1".toList)
        (Binary64.ofDecimal decimal) := by
  have isNumber : "-1e-400".toList ∈ Numeral.number.matches' := by
    decide +kernel
  have isRead : Dimension.wellFormed? "-1e-400" = some ⟨"-1", "e-400"⟩ := by
    decide +kernel
  obtain ⟨-, -, number, dimension⟩ := ranges_of_word "-1e-400"
  exact ⟨isNumber, isRead, number isNumber, dimension _ isRead⟩

end Quantity

end StyleValue
