import Mathlib.Computability.RegularExpressions
import Mathlib.Tactic.IntervalCases
import StyleValue.Proofs.Text.LetterCase

/-! How numbers are written, as regular expressions, and which texts these
match. -/

namespace StyleValue

namespace Numeral

open RegularExpression (char)

def oneOf (marks : String) : RegularExpression Char :=
  marks.toList.foldr (fun mark others => char mark + others) 0

def digit : RegularExpression Char :=
  oneOf "0123456789"

/-- At least one digit. -/
def digits : RegularExpression Char :=
  digit * digit.star

/-- One sign or none. -/
def sign : RegularExpression Char :=
  1 + oneOf "+-"

def integer : RegularExpression Char :=
  sign * digits

/-- Digits, or a point with digits after it and perhaps before it. -/
def mantissa : RegularExpression Char :=
  digits + digit.star * char '.' * digits

def decimal : RegularExpression Char :=
  sign * mantissa

def exponent : RegularExpression Char :=
  oneOf "eE" * integer

def number : RegularExpression Char :=
  decimal * (1 + exponent)

/-- Digits and at most one point, perhaps neither. -/
def run : RegularExpression Char :=
  digit.star + digit.star * char '.' * digit.star

def AreDigits (text : List Char) : Prop :=
  ∀ c ∈ text, c.isDigit = true

variable {text body rest : List Char}

/-! What the expressions match. -/

theorem mem_oneOf_iff {marks : String} :
    text ∈ (oneOf marks).matches' ↔ ∃ c ∈ marks.toList, text = [c] := by
  rw [oneOf]
  induction marks.toList with
  | nil => simp [Language.notMem_zero]
  | cons mark others ih =>
      rw [List.foldr_cons, RegularExpression.matches'_add, Language.mem_add, ih,
        List.exists_mem_cons_iff]
      rfl

theorem mem_digitMarks_iff {c : Char} :
    c ∈ "0123456789".toList ↔ c.isDigit = true := by
  constructor
  · intro member
    have areDigits : "0123456789".toList.all Char.isDigit = true := by
      decide +kernel
    exact List.all_eq_true.mp areDigits c member
  · intro isDigit
    obtain ⟨low, high⟩ := isDigit_iff.mp isDigit
    rw [← Char.ofNat_toNat c]
    interval_cases c.toNat <;> decide

theorem mem_digit_iff :
    text ∈ digit.matches' ↔ ∃ c, c.isDigit = true ∧ text = [c] := by
  simp only [digit, mem_oneOf_iff, mem_digitMarks_iff]

theorem mem_star_digit_iff : text ∈ digit.star.matches' ↔ AreDigits text := by
  rw [RegularExpression.matches'_star, Language.mem_kstar]
  constructor
  · rintro ⟨pieces, rfl, areDigits⟩ c member
    obtain ⟨piece, isPiece, inPiece⟩ := List.mem_flatten.mp member
    obtain ⟨found, isDigit, rfl⟩ := mem_digit_iff.mp (areDigits piece isPiece)
    rwa [List.mem_singleton.mp inPiece]
  · intro areDigits
    refine ⟨text.map fun c => [c], ?_, ?_⟩
    · rw [← List.flatMap_def, List.flatMap_singleton']
    · intro piece isPiece
      obtain ⟨c, member, rfl⟩ := List.mem_map.mp isPiece
      exact mem_digit_iff.mpr ⟨c, areDigits c member, rfl⟩

theorem mem_digits_iff :
    text ∈ digits.matches' ↔ text ≠ [] ∧ AreDigits text := by
  rw [digits, RegularExpression.matches'_mul, Language.mem_mul]
  constructor
  · rintro ⟨first, isFirst, more, isMore, rfl⟩
    obtain ⟨c, isDigit, rfl⟩ := mem_digit_iff.mp isFirst
    refine ⟨List.cons_ne_nil _ _, ?_⟩
    exact List.forall_mem_cons.mpr ⟨isDigit, mem_star_digit_iff.mp isMore⟩
  · rintro ⟨nonempty, areDigits⟩
    obtain ⟨c, more, rfl⟩ := List.exists_cons_of_ne_nil nonempty
    obtain ⟨isDigit, moreDigits⟩ := List.forall_mem_cons.mp areDigits
    exact ⟨[c], mem_digit_iff.mpr ⟨c, isDigit, rfl⟩, more,
      mem_star_digit_iff.mpr moreDigits, rfl⟩

theorem mem_sign_iff :
    text ∈ sign.matches' ↔ text = [] ∨ ∃ c, isSign c = true ∧ text = [c] := by
  have isMark (c : Char) : c ∈ "+-".toList ↔ isSign c = true := by
    simp [isSign]
  rw [sign, RegularExpression.matches'_add, Language.mem_add, mem_oneOf_iff]
  simp only [isMark]
  rfl

theorem mem_optional_iff {expression : RegularExpression Char} :
    text ∈ (1 + expression).matches' ↔
      text = [] ∨ text ∈ expression.matches' := by
  rw [RegularExpression.matches'_add, Language.mem_add]
  rfl

theorem mem_pointed_iff {first second : RegularExpression Char} :
    text ∈ (first * char '.' * second).matches' ↔
      ∃ whole ∈ first.matches', ∃ fraction ∈ second.matches',
        text = whole ++ '.' :: fraction := by
  simp only [RegularExpression.matches'_mul, Language.mem_mul]
  constructor
  · rintro ⟨_, ⟨whole, isWhole, _, rfl, rfl⟩, fraction, isFraction, rfl⟩
    exact ⟨whole, isWhole, fraction, isFraction, by simp⟩
  · rintro ⟨whole, isWhole, fraction, isFraction, rfl⟩
    exact ⟨whole ++ ['.'], ⟨whole, isWhole, ['.'], rfl, rfl⟩, fraction,
      isFraction, by simp⟩

theorem mem_mantissa_iff :
    text ∈ mantissa.matches' ↔
      (text ≠ [] ∧ AreDigits text) ∨
        ∃ whole fraction, AreDigits whole ∧ fraction ≠ [] ∧
          AreDigits fraction ∧ text = whole ++ '.' :: fraction := by
  rw [mantissa, RegularExpression.matches'_add, Language.mem_add,
    mem_digits_iff, mem_pointed_iff]
  simp only [mem_star_digit_iff, mem_digits_iff]
  refine or_congr_right ⟨?_, ?_⟩
  · rintro ⟨whole, isWhole, fraction, ⟨nonempty, isFraction⟩, rfl⟩
    exact ⟨whole, fraction, isWhole, nonempty, isFraction, rfl⟩
  · rintro ⟨whole, fraction, isWhole, nonempty, isFraction, rfl⟩
    exact ⟨whole, isWhole, fraction, ⟨nonempty, isFraction⟩, rfl⟩

theorem mem_run_iff :
    text ∈ run.matches' ↔
      AreDigits text ∨ ∃ whole fraction, AreDigits whole ∧
        AreDigits fraction ∧ text = whole ++ '.' :: fraction := by
  rw [run, RegularExpression.matches'_add, Language.mem_add,
    mem_star_digit_iff, mem_pointed_iff]
  simp only [mem_star_digit_iff]
  refine or_congr_right ⟨?_, ?_⟩
  · rintro ⟨whole, isWhole, fraction, isFraction, rfl⟩
    exact ⟨whole, fraction, isWhole, isFraction, rfl⟩
  · rintro ⟨whole, fraction, isWhole, isFraction, rfl⟩
    exact ⟨whole, isWhole, fraction, isFraction, rfl⟩

theorem mem_exponent_iff :
    text ∈ exponent.matches' ↔
      ∃ mark rest, Decimal.isExponentMark mark = true ∧
        rest ∈ integer.matches' ∧ text = mark :: rest := by
  have isMark (c : Char) : c ∈ "eE".toList ↔ Decimal.isExponentMark c = true := by
    simp [Decimal.isExponentMark]
  rw [exponent, RegularExpression.matches'_mul, Language.mem_mul]
  simp only [mem_oneOf_iff, isMark]
  constructor
  · rintro ⟨_, ⟨mark, isMark, rfl⟩, rest, isInteger, rfl⟩
    exact ⟨mark, rest, isMark, isInteger, rfl⟩
  · rintro ⟨mark, rest, isMark, isInteger, rfl⟩
    exact ⟨[mark], ⟨mark, isMark, rfl⟩, rest, isInteger, rfl⟩

theorem mem_number_iff :
    text ∈ number.matches' ↔
      ∃ signs ∈ sign.matches', ∃ body ∈ mantissa.matches',
        ∃ scale ∈ (1 + exponent).matches', text = signs ++ (body ++ scale) := by
  simp only [number, decimal, RegularExpression.matches'_mul, Language.mem_mul]
  constructor
  · rintro ⟨_, ⟨signs, isSigns, body, isMantissa, rfl⟩, scale, isScale, rfl⟩
    exact ⟨signs, isSigns, body, isMantissa, scale, isScale, by simp⟩
  · rintro ⟨signs, isSigns, body, isMantissa, scale, isScale, rfl⟩
    exact ⟨signs ++ body, ⟨signs, isSigns, body, isMantissa, rfl⟩, scale,
      isScale, by simp⟩

theorem mem_number_of_decimal (isDecimal : text ∈ decimal.matches') :
    text ∈ number.matches' :=
  Language.mem_mul.mpr ⟨text, isDecimal, [], mem_optional_iff.mpr (.inl rfl),
    List.append_nil text⟩

theorem AreDigits.notMem {c : Char} (areDigits : AreDigits text)
    (notDigit : c.isDigit = false) : c ∉ text := by
  intro member
  rw [areDigits c member] at notDigit
  contradiction

theorem notMem_of_sign {c : Char} (isSigns : text ∈ sign.matches')
    (notSign : isSign c = false) : c ∉ text := by
  rcases mem_sign_iff.mp isSigns with rfl | ⟨found, isSign, rfl⟩
  · exact List.not_mem_nil
  · intro member
    rw [List.mem_singleton.mp member, isSign] at notSign
    contradiction

theorem AreDigits.point_notMem (areDigits : AreDigits text) : '.' ∉ text :=
  areDigits.notMem rfl

theorem point_notMem_of_sign (isSigns : text ∈ sign.matches') : '.' ∉ text :=
  notMem_of_sign isSigns rfl

theorem AreDigits.getLast?_ne_point (areDigits : AreDigits text) :
    text.getLast? ≠ some '.' := by
  intro isLast
  exact areDigits.point_notMem (List.mem_of_getLast? isLast)

theorem AreDigits.any_isDigit (areDigits : AreDigits text)
    (nonempty : text ≠ []) : text.any Char.isDigit = true := by
  obtain ⟨c, more, rfl⟩ := List.exists_cons_of_ne_nil nonempty
  rw [List.any_cons, areDigits c List.mem_cons_self, Bool.true_or]

/-- A run with a digit that does not end in its point is a mantissa. -/
theorem mem_mantissa_iff_mem_run :
    text ∈ mantissa.matches' ↔
      text ∈ run.matches' ∧ text.any Char.isDigit = true ∧
        text.getLast? ≠ some '.' := by
  rw [mem_mantissa_iff, mem_run_iff]
  constructor
  · rintro (⟨nonempty, areDigits⟩ | ⟨whole, fraction, isWhole, nonempty,
      isFraction, rfl⟩)
    · exact ⟨.inl areDigits, areDigits.any_isDigit nonempty,
        areDigits.getLast?_ne_point⟩
    · refine ⟨.inr ⟨whole, fraction, isWhole, isFraction, rfl⟩, ?_, ?_⟩
      · rw [List.any_append, List.any_cons, isFraction.any_isDigit nonempty,
          Bool.or_true, Bool.or_true]
      · rw [List.getLast?_append_of_ne_nil _ (List.cons_ne_nil _ _),
          ← List.singleton_append,
          List.getLast?_append_of_ne_nil _ nonempty]
        exact isFraction.getLast?_ne_point
  · rintro ⟨areDigits | ⟨whole, fraction, isWhole, isFraction, rfl⟩, hasDigit,
      notPoint⟩
    · refine .inl ⟨?_, areDigits⟩
      rintro rfl
      contradiction
    · refine .inr ⟨whole, fraction, isWhole, ?_, isFraction, rfl⟩
      rintro rfl
      exact notPoint List.getLast?_concat

theorem isSign_of_isDigit {c : Char} (isDigit : c.isDigit = true) :
    isSign c = false := by
  rw [isSign, Bool.or_eq_false_iff, beq_eq_false_iff_ne, beq_eq_false_iff_ne]
  constructor
  · rintro rfl
    contradiction
  · rintro rfl
    contradiction

theorem isSign_head?_digits (isDigits : text ∈ digits.matches') :
    ∀ c ∈ text.head?, isSign c = false := by
  intro c isHead
  have areDigits := (mem_digits_iff.mp isDigits).2
  exact isSign_of_isDigit (areDigits c (List.mem_of_head? isHead))

theorem isSign_head?_run (isRun : body ∈ run.matches') :
    ∀ c ∈ body.head?, isSign c = false := by
  intro c isHead
  rcases mem_run_iff.mp isRun with areDigits | ⟨whole, fraction, isWhole, -, rfl⟩
  · exact isSign_of_isDigit (areDigits c (List.mem_of_head? isHead))
  · cases whole with
    | nil =>
        cases isHead
        rfl
    | cons first whole =>
        cases isHead
        exact isSign_of_isDigit (isWhole c List.mem_cons_self)

end Numeral

end StyleValue
