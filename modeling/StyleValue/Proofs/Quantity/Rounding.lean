import Mathlib.Algebra.Order.Field.Basic
import Mathlib.Algebra.Order.Field.Rat
import Mathlib.Data.Nat.Cast.Order.Field
import Mathlib.Data.Rat.Cast.Order
import Mathlib.Tactic.FieldSimp
import Mathlib.Tactic.Linarith
import Mathlib.Tactic.Positivity
import Mathlib.Tactic.Ring
import StyleValue.Quantity.Binary64

/-! Rounding is correct: of the numbers with a significand of 53 bits the result
is the nearest one, and of two equally near ones that with an even significand. -/

namespace StyleValue

/-- The absolute value of a decimal. -/
def Decimal.magnitude (decimal : Decimal) : ℚ :=
  decimal.digits * 10 ^ decimal.exponent

theorem Decimal.magnitude_nonneg (decimal : Decimal) : 0 ≤ decimal.magnitude :=
  mul_nonneg (Nat.cast_nonneg _) (zpow_nonneg (by norm_num) _)

namespace Binary64

/-- All 53 bits of a significand are used, except at the least exponent. -/
def IsSignificand (significand power : ℕ) : Prop :=
  significand < 2 ^ 53 ∧ (power = 0 ∨ 2 ^ 52 ≤ significand)

def IsRepresentable (units : ℕ) : Prop :=
  ∃ significand power, IsSignificand significand power ∧
    units = significand * 2 ^ power

def IsEven (units : ℕ) : Prop :=
  ∃ significand power, IsSignificand significand power ∧ Even significand ∧
    units = significand * 2 ^ power

/-- No representable number is nearer to the target, and if another one is as
near, the significand is even. -/
structure IsNearest (target : ℚ) (units : ℕ) : Prop where
  representable : IsRepresentable units
  nearest : ∀ other, IsRepresentable other →
    |target - units| ≤ |target - other|
  even : ∀ other, IsRepresentable other → other ≠ units →
    |target - other| = |target - units| → IsEven units

/-! The integer nearest to a quotient. -/

theorem roundQuotient_nearest (numerator : ℕ) {denominator : ℕ}
    (positive : 0 < denominator) :
    |(numerator : ℚ) / denominator - roundQuotient numerator denominator| ≤
        1 / 2 ∧
      (|(numerator : ℚ) / denominator - roundQuotient numerator denominator| =
        1 / 2 → Even (roundQuotient numerator denominator)) := by
  have positive' : (0 : ℚ) < denominator := by exact_mod_cast positive
  have whole : (denominator : ℚ) * (numerator / denominator : ℕ) +
      (numerator % denominator : ℕ) = numerator := by
    exact_mod_cast Nat.div_add_mod numerator denominator
  have remains := Nat.mod_lt numerator positive
  rw [roundQuotient]
  generalize numerator / denominator = quotient at whole
  generalize numerator % denominator = remainder at whole remains
  have split : (numerator : ℚ) / denominator =
      quotient + remainder / denominator := by
    rw [← whole]
    field_simp
  have nonneg : (0 : ℚ) ≤ remainder / denominator := by positivity
  split
  next isBelow =>
    have below : (remainder : ℚ) / denominator < 1 / 2 := by
      rw [div_lt_div_iff₀ positive' two_pos]
      exact_mod_cast (by omega : remainder * 2 < 1 * denominator)
    rw [split, add_sub_cancel_left, abs_of_nonneg nonneg]
    exact ⟨below.le, fun atHalf => absurd atHalf below.ne⟩
  next notBelow =>
  split
  next isAbove =>
    have above : 1 / 2 < (remainder : ℚ) / denominator := by
      rw [div_lt_div_iff₀ two_pos positive']
      exact_mod_cast (by omega : 1 * denominator < remainder * 2)
    have short : (remainder : ℚ) / denominator < 1 := by
      rw [div_lt_one positive']
      exact_mod_cast remains
    have distance : |(numerator : ℚ) / denominator - (quotient + 1 : ℕ)| =
        1 - remainder / denominator := by
      rw [split, abs_sub_comm, abs_of_nonneg (by push_cast; linarith)]
      push_cast
      ring
    rw [distance]
    exact ⟨by linarith, fun atHalf => by linarith⟩
  next notAbove =>
    have half : (remainder : ℚ) / denominator = 1 / 2 := by
      rw [div_eq_div_iff positive'.ne' two_ne_zero]
      exact_mod_cast (by omega : remainder * 2 = 1 * denominator)
    rw [split, half]
    rcases Nat.mod_two_eq_zero_or_one quotient with isEven | isOdd
    · rw [isEven, add_zero, add_sub_cancel_left, abs_of_pos (by norm_num)]
      exact ⟨le_rfl, fun _ => Nat.even_iff.mpr isEven⟩
    · rw [isOdd, abs_sub_comm, abs_of_nonneg (by push_cast; linarith)]
      refine ⟨by push_cast; linarith, fun _ => ?_⟩
      exact (Nat.odd_iff.mpr isOdd).add_one

/-! Grids of a power of two. -/

section

variable {target : ℚ} {power multiple : ℕ}

theorem abs_sub_mul_pow (target : ℚ) (multiple power : ℕ) :
    |target - (multiple * 2 ^ power : ℕ)| =
      2 ^ power * |target / 2 ^ power - multiple| := by
  have positive : (0 : ℚ) < 2 ^ power := by positivity
  rw [← abs_of_pos positive, ← abs_mul, abs_of_pos positive]
  congr 1
  push_cast
  field_simp

/-- No other number of the grid is nearer than one that is at most half a step
away. -/
theorem nearest_of_grid (near : |target / 2 ^ power - multiple| ≤ 1 / 2)
    (other : ℕ) :
    |target - (multiple * 2 ^ power : ℕ)| ≤
        |target - (other * 2 ^ power : ℕ)| ∧
      (other ≠ multiple →
        |target - (other * 2 ^ power : ℕ)| =
          |target - (multiple * 2 ^ power : ℕ)| →
        |target / 2 ^ power - multiple| = 1 / 2) := by
  have positive : (0 : ℚ) < 2 ^ power := by positivity
  rw [abs_sub_mul_pow, abs_sub_mul_pow]
  by_cases isSame : other = multiple
  · subst isSame
    exact ⟨le_rfl, fun different => absurd rfl different⟩
  · have apart : (1 : ℚ) ≤ |(other : ℚ) - multiple| := by
      have different : (other : ℤ) - multiple ≠ 0 := by omega
      exact_mod_cast Int.one_le_abs different
    have triangle := abs_sub_le (other : ℚ) (target / 2 ^ power) multiple
    rw [abs_sub_comm (other : ℚ) (target / 2 ^ power)] at triangle
    refine ⟨mul_le_mul_of_nonneg_left (by linarith) positive.le, ?_⟩
    intro _ same
    have sameSteps := mul_left_cancel₀ positive.ne' same
    linarith

/-- From `2 ^ (power + 52)` on, all representable numbers are on the grid. -/
theorem IsRepresentable.dvd {units : ℕ} (representable : IsRepresentable units)
    (large : power = 0 ∨ 2 ^ (power + 52) ≤ units) : 2 ^ power ∣ units := by
  obtain ⟨significand, exponent, ⟨short, -⟩, rfl⟩ := representable
  rcases large with rfl | large
  · exact one_dvd _
  · have notBelow : power ≤ exponent := by
      by_contra below
      have bounded : significand * 2 ^ exponent < 2 ^ 53 * 2 ^ exponent :=
        Nat.mul_lt_mul_of_pos_right short (Nat.two_pow_pos exponent)
      have reached : 2 ^ (53 + exponent) ≤ 2 ^ (power + 52) :=
        Nat.pow_le_pow_right two_pos (by omega)
      rw [← pow_add] at bounded
      omega
    exact Dvd.dvd.mul_left (pow_dvd_pow 2 notBelow) significand

/-- A full significand may carry over into the next power of two. -/
theorem exists_isSignificand (short : multiple ≤ 2 ^ 53)
    (full : power = 0 ∨ 2 ^ 52 ≤ multiple) :
    ∃ significand exponent, IsSignificand significand exponent ∧
      (Even multiple → Even significand) ∧
      multiple * 2 ^ power = significand * 2 ^ exponent := by
  rcases short.lt_or_eq with isShort | rfl
  · exact ⟨multiple, power, ⟨isShort, full⟩, id, rfl⟩
  · refine ⟨2 ^ 52, power + 1, ⟨by norm_num, .inr le_rfl⟩, fun _ => ?_, ?_⟩
    · exact ⟨2 ^ 51, by norm_num⟩
    · rw [pow_succ]
      ring

theorem isRepresentable_pow (large : 52 ≤ power) : IsRepresentable (2 ^ power) :=
  ⟨2 ^ 52, power - 52, ⟨by norm_num, .inr le_rfl⟩,
    by rw [← pow_add, Nat.add_sub_cancel' large]⟩

/-- A representable number that is not on the grid of the target lies below the
target's power of two, which is on the grid and nearer. -/
theorem nearest_of_representable
    (near : |target / 2 ^ power - multiple| ≤ 1 / 2)
    (above : power = 0 ∨ 2 ^ (power + 52) ≤ target) {other : ℕ}
    (representable : IsRepresentable other) :
    |target - (multiple * 2 ^ power : ℕ)| ≤ |target - other| ∧
      (other ≠ multiple * 2 ^ power →
        |target - other| = |target - (multiple * 2 ^ power : ℕ)| →
        |target / 2 ^ power - multiple| = 1 / 2) := by
  by_cases large : power = 0 ∨ 2 ^ (power + 52) ≤ other
  · obtain ⟨steps, rfl⟩ := representable.dvd large
    rw [mul_comm (2 ^ power) steps]
    obtain ⟨nearest, atHalf⟩ := nearest_of_grid near steps
    exact ⟨nearest, fun different => atHalf fun same => different (by rw [same])⟩
  · obtain ⟨notLeast, small⟩ := not_or.mp large
    have reached := above.resolve_left notLeast
    have smaller : (other : ℚ) < 2 ^ (power + 52) := by
      exact_mod_cast not_le.mp small
    have edge := (nearest_of_grid near (2 ^ 52)).1
    rw [← pow_add, add_comm 52, Nat.cast_pow, Nat.cast_ofNat,
      abs_of_nonneg (sub_nonneg.mpr reached)] at edge
    rw [abs_of_pos (a := target - other) (by linarith)]
    exact ⟨by linarith, fun _ same => by linarith⟩

/-- Rounding to the grid that has 53 bits at the target gives the nearest. -/
theorem isNearest_of_grid (near : |target / 2 ^ power - multiple| ≤ 1 / 2)
    (tie : |target / 2 ^ power - multiple| = 1 / 2 → Even multiple)
    (below : target < 2 ^ (power + 53))
    (above : power = 0 ∨ 2 ^ (power + 52) ≤ target) :
    IsNearest target (multiple * 2 ^ power) := by
  have positive : (0 : ℚ) < 2 ^ power := by positivity
  obtain ⟨low, high⟩ := abs_le.mp near
  have short : multiple ≤ 2 ^ 53 := by
    have steps : target / 2 ^ power < 2 ^ 53 := by
      rw [div_lt_iff₀ positive, ← pow_add, add_comm]
      exact below
    have bounded : (multiple : ℚ) < 2 ^ 53 + 1 := by linarith
    exact Nat.lt_succ_iff.mp (by exact_mod_cast bounded)
  have full : power = 0 ∨ 2 ^ 52 ≤ multiple := by
    refine above.imp_right fun reached => ?_
    have steps : 2 ^ 52 ≤ target / 2 ^ power := by
      rw [le_div_iff₀ positive, ← pow_add, add_comm]
      exact reached
    have bounded : (2 : ℚ) ^ 52 < multiple + 1 := by linarith
    exact Nat.lt_succ_iff.mp (by exact_mod_cast bounded)
  obtain ⟨significand, exponent, isSignificand, isEven, same⟩ :=
    exists_isSignificand short full
  refine ⟨⟨significand, exponent, isSignificand, same⟩, ?_, ?_⟩
  · intro other representable
    exact (nearest_of_representable near above representable).1
  · intro other representable different equallyNear
    have atHalf := (nearest_of_representable near above representable).2
      different equallyNear
    exact ⟨significand, exponent, isSignificand, isEven (tie atHalf), same⟩

end

/-- The quotient lies below the end of the grid that its integral part selects,
and at or above its start unless the grid is the least one. -/
theorem grid_of_quotient {numerator denominator : ℕ}
    (positive : 0 < denominator) :
    (numerator : ℚ) / denominator <
        2 ^ ((numerator / denominator).log2 - 52 + 53) ∧
      ((numerator / denominator).log2 - 52 = 0 ∨
        2 ^ ((numerator / denominator).log2 - 52 + 52) ≤
          (numerator : ℚ) / denominator) := by
  have positive' : (0 : ℚ) < denominator := by exact_mod_cast positive
  have isFloor : ((numerator / denominator : ℕ) : ℚ) ≤ numerator / denominator :=
    Nat.cast_div_le
  have isBelow : (numerator : ℚ) / denominator <
      ((numerator / denominator + 1 : ℕ) : ℚ) := by
    rw [div_lt_iff₀ positive', mul_comm]
    exact_mod_cast Nat.lt_mul_div_succ numerator positive
  generalize numerator / denominator = quotient at isFloor isBelow
  constructor
  · refine isBelow.trans_le ?_
    have bounded : quotient + 1 ≤ 2 ^ (quotient.log2 - 52 + 53) :=
      calc
        quotient + 1 ≤ 2 ^ (quotient.log2 + 1) := Nat.lt_log2_self
        _ ≤ _ := Nat.pow_le_pow_right two_pos (by omega)
    exact_mod_cast bounded
  · refine or_iff_not_imp_left.mpr fun notLeast => le_trans ?_ isFloor
    have nonzero : quotient ≠ 0 := by
      rintro rfl
      simp at notLeast
    have reached : 2 ^ (quotient.log2 - 52 + 52) ≤ quotient := by
      rw [Nat.sub_add_cancel (by omega)]
      exact Nat.log2_self_le nonzero
    exact_mod_cast reached

theorem isNearest_roundUnits {numerator denominator : ℕ}
    (positive : 0 < denominator) :
    IsNearest ((numerator : ℚ) / denominator)
      (roundUnits numerator denominator) := by
  obtain ⟨below, above⟩ := grid_of_quotient positive
  have isUnits : roundUnits numerator denominator =
      roundQuotient numerator
          (denominator * 2 ^ ((numerator / denominator).log2 - 52)) *
        2 ^ ((numerator / denominator).log2 - 52) := rfl
  rw [isUnits]
  generalize (numerator / denominator).log2 - 52 = power at below above
  obtain ⟨near, tie⟩ := roundQuotient_nearest numerator
    (Nat.mul_pos positive (Nat.two_pow_pos power))
  rw [Nat.cast_mul, Nat.cast_pow, Nat.cast_ofNat, ← div_div] at near tie
  exact isNearest_of_grid near tie below above

/-! Decimals. -/

theorem isNearest_zero {target : ℚ} (nonneg : 0 ≤ target)
    (small : target ≤ 1 / 2) : IsNearest target 0 := by
  have near : |target / 2 ^ 0 - (0 : ℕ)| ≤ 1 / 2 := by
    simpa [abs_of_nonneg nonneg] using small
  have isNearest := isNearest_of_grid near (fun _ => Even.zero)
    (small.trans_lt (by norm_num)) (.inl rfl)
  rwa [zero_mul] at isNearest

theorem IsNearest.pow_le {target : ℚ} {units power : ℕ}
    (isNearest : IsNearest target units) (large : 52 ≤ power)
    (reached : 2 ^ power ≤ target) : 2 ^ power ≤ units := by
  by_contra below
  have smaller : (units : ℚ) < 2 ^ power := by exact_mod_cast not_le.mp below
  have nearest := isNearest.nearest _ (isRepresentable_pow large)
  rw [Nat.cast_pow, Nat.cast_ofNat, abs_of_nonneg (sub_nonneg.mpr reached),
    abs_of_pos (by linarith)] at nearest
  linarith

/-- Ten is more than two. -/
theorem pow_le_of_large {digits power bound : ℕ} (nonzero : digits ≠ 0)
    (large : bound ≤ power) : 2 ^ bound ≤ digits * 10 ^ power :=
  calc
    2 ^ bound ≤ 2 ^ power := Nat.pow_le_pow_right two_pos large
    _ ≤ 10 ^ power := Nat.pow_le_pow_left (by norm_num) power
    _ ≤ digits * 10 ^ power :=
      Nat.le_mul_of_pos_left _ (Nat.pos_of_ne_zero nonzero)

/-- Ten is more than the third power of two. -/
theorem le_pow_of_small {digits power scale : ℕ}
    (small : digits.log2 + (scale + 2) ≤ 3 * power) :
    2 * (digits * 2 ^ scale) ≤ 10 ^ power :=
  calc
    2 * (digits * 2 ^ scale) ≤ 2 * (2 ^ (digits.log2 + 1) * 2 ^ scale) :=
      Nat.mul_le_mul_left _ (Nat.mul_le_mul_right _ Nat.lt_log2_self.le)
    _ = 2 ^ (digits.log2 + (scale + 2)) := by ring
    _ ≤ 2 ^ (3 * power) := Nat.pow_le_pow_right two_pos small
    _ = 8 ^ power := by rw [pow_mul]; norm_num
    _ ≤ 10 ^ power := Nat.pow_le_pow_left (by norm_num) power

/-- A unit is `2 ^ -scale`. -/
def scale : ℕ := 1074

/-- Finite numbers stay below `2 ^ reach`. -/
def reach : ℕ := 1024

theorem scale_eq : scale = 1074 := rfl

theorem reach_eq : reach = 1024 := rfl

-- The exponents keep their names: no tactic should evaluate the powers.
theorem two_pow_eq (power : ℕ) : Nat.pow 2 power = 2 ^ power := rfl

theorem one_eq : one = 2 ^ scale := by
  unfold one
  rw [← scale_eq, two_pow_eq]

theorem limit_eq : limit = 2 ^ (reach + scale) := by
  rw [limit, one_eq, ← reach_eq, two_pow_eq, pow_add]

theorem limit_pos : 0 < limit := by
  rw [limit_eq]
  exact Nat.two_pow_pos _

theorem ofUnits_zero (negative : Bool) :
    ofUnits negative 0 = .finite negative 0 := by
  rw [ofUnits, if_pos limit_pos]

theorem ofUnits_of_limit_le (negative : Bool) {units : ℕ}
    (large : limit ≤ units) : ofUnits negative units = .infinite negative := by
  rw [ofUnits, if_neg (not_lt.mpr large)]

section

variable {digits power : ℕ}

theorem magnitude_ofNat (negative : Bool) :
    Decimal.magnitude ⟨negative, digits, .ofNat power⟩ * 2 ^ scale =
      ((digits * 10 ^ power * 2 ^ scale : ℕ) : ℚ) / (1 : ℕ) := by
  rw [Decimal.magnitude, Int.ofNat_eq_natCast, zpow_natCast]
  push_cast
  rw [div_one]

theorem magnitude_negSucc (negative : Bool) :
    Decimal.magnitude ⟨negative, digits, .negSucc power⟩ * 2 ^ scale =
      ((digits * 2 ^ scale : ℕ) : ℚ) / (10 ^ (power + 1) : ℕ) := by
  rw [Decimal.magnitude, zpow_negSucc]
  push_cast
  ring

/-- An exponent that is settled as too large is too large. -/
theorem limit_le_roundUnits (nonzero : digits ≠ 0) (large : 1024 ≤ power) :
    limit ≤ roundUnits (digits * 10 ^ power * 2 ^ scale) 1 := by
  have isNearest : IsNearest _ (roundUnits (digits * 10 ^ power * 2 ^ scale) 1) :=
    isNearest_roundUnits one_pos
  rw [limit_eq]
  refine isNearest.pow_le (by rw [scale_eq]; omega) ?_
  have reached : 2 ^ (reach + scale) ≤ digits * 10 ^ power * 2 ^ scale := by
    rw [pow_add]
    exact Nat.mul_le_mul_right _ (pow_le_of_large nonzero large)
  rw [Nat.cast_one, div_one]
  exact_mod_cast reached

/-- An exponent that is settled as too small is too small. -/
theorem isNearest_of_small (small : digits.log2 + 1076 < 3 * (power + 1)) :
    IsNearest (((digits * 2 ^ scale : ℕ) : ℚ) / (10 ^ (power + 1) : ℕ)) 0 := by
  have bounded : 2 * (digits * 2 ^ scale) ≤ 10 ^ (power + 1) :=
    le_pow_of_small (by rw [scale_eq]; omega)
  refine isNearest_zero (div_nonneg (Nat.cast_nonneg _) (Nat.cast_nonneg _)) ?_
  rw [div_le_div_iff₀ (by positivity) two_pos]
  exact_mod_cast (by omega : digits * 2 ^ scale * 2 ≤ 1 * 10 ^ (power + 1))

end

theorem isNearest_ofDecimal (decimal : Decimal) :
    ∃ units, IsNearest (decimal.magnitude * 2 ^ scale) units ∧
      ofDecimal decimal = ofUnits decimal.negative units := by
  obtain ⟨negative, digits, exponent⟩ := decimal
  by_cases isZero : digits = 0
  · refine ⟨0, isNearest_zero ?_ ?_, ?_⟩
    · simp [Decimal.magnitude, isZero]
    · simp [Decimal.magnitude, isZero]
    · rw [ofDecimal, if_pos isZero, ofUnits_zero]
  cases exponent with
  | ofNat power =>
      refine ⟨roundUnits (digits * 10 ^ power * 2 ^ scale) 1, ?_, ?_⟩
      · rw [magnitude_ofNat]
        exact isNearest_roundUnits one_pos
      · rw [ofDecimal, if_neg isZero, one_eq]
        dsimp only
        split
        next large =>
          have isLarge := limit_le_roundUnits isZero large
          exact (ofUnits_of_limit_le negative isLarge).symm
        next => rfl
  | negSucc power =>
      rw [ofDecimal, if_neg isZero, one_eq, magnitude_negSucc]
      dsimp only
      split
      next small => exact ⟨0, isNearest_of_small small, (ofUnits_zero _).symm⟩
      next =>
        exact ⟨_, isNearest_roundUnits (Nat.pow_pos (by norm_num)), rfl⟩

end Binary64

end StyleValue
