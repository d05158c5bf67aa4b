import Mathlib.Data.List.TakeWhile
import StyleValue.Proofs.Quantity.Numeral
import StyleValue.Proofs.Text.Span

/-! Two scans look for numbers. One takes the longest start that may be a number
off a text, whatever unit follows it; the other cuts the whole text at its
exponent mark and at its point. They agree on what a number is. -/

namespace StyleValue

/-! Taking a number off the start of a text. -/

namespace Dimension

open Numeral

variable {text body rest : List Char}

/-- The unit does not go on with the number. -/
def Stops (number unit : List Char) : Prop :=
  ∀ c ∈ unit.head?, c.isDigit = false ∧ (c = '.' → '.' ∈ number)

/-- A sign, or none, and then digits with at most one point among them. -/
def IsStart (number : List Char) : Prop :=
  ∃ signs ∈ sign.matches', ∃ body ∈ run.matches',
    body.any Char.isDigit = true ∧ number = signs ++ body

theorem ne_nil_of_any {test : Char → Bool} (found : body.any test = true) :
    body ≠ [] := by
  rintro rfl
  contradiction

theorem splitSign_isSplit (text : List Char) :
    (splitSign text).1 ++ (splitSign text).2 = text ∧
      (splitSign text).1 ∈ sign.matches' := by
  cases text with
  | nil => exact ⟨rfl, mem_sign_iff.mpr (.inl rfl)⟩
  | cons c rest =>
      rw [splitSign]
      split
      next isSign => exact ⟨rfl, mem_sign_iff.mpr (.inr ⟨c, isSign, rfl⟩)⟩
      next => exact ⟨rfl, mem_sign_iff.mpr (.inl rfl)⟩

theorem splitSign_append {signs : List Char} (isSigns : signs ∈ sign.matches')
    (stops : ∀ c ∈ rest.head?, isSign c = false) :
    splitSign (signs ++ rest) = (signs, rest) := by
  rcases mem_sign_iff.mp isSigns with rfl | ⟨c, isSign, rfl⟩
  · cases rest with
    | nil => rfl
    | cons first rest =>
        rw [List.nil_append, splitSign, stops first rfl]
        rfl
  · rw [List.singleton_append, splitSign, if_pos isSign]

theorem splitDigits_isSplit (text : List Char) :
    (splitDigits text).1 ++ (splitDigits text).2 = text ∧
      (splitDigits text).1 ∈ run.matches' ∧
      Stops (splitDigits text).1 (splitDigits text).2 := by
  have whole : text.takeWhile Char.isDigit ++ text.dropWhile Char.isDigit = text :=
    List.takeWhile_append_dropWhile
  have isWhole : AreDigits (text.takeWhile Char.isDigit) :=
    List.all_eq_true.mp List.all_takeWhile
  have stops := stops_dropWhile Char.isDigit text
  rw [splitDigits]
  split
  next fraction hasPoint =>
    have isFraction : AreDigits (fraction.takeWhile Char.isDigit) :=
      List.all_eq_true.mp List.all_takeWhile
    refine ⟨?_, mem_run_iff.mpr (.inr ⟨_, _, isWhole, isFraction, rfl⟩), ?_⟩
    · rw [List.append_assoc, List.cons_append, List.takeWhile_append_dropWhile,
        ← hasPoint, whole]
    · intro c isHead
      exact ⟨stops_dropWhile _ fraction c isHead, fun _ => by simp⟩
  next notPoint =>
    refine ⟨whole, mem_run_iff.mpr (.inl isWhole), ?_⟩
    intro c isHead
    refine ⟨stops c isHead, ?_⟩
    rintro rfl
    obtain ⟨fraction, hasPoint⟩ := List.head?_eq_some_iff.mp isHead
    exact absurd hasPoint (notPoint fraction)

theorem splitDigits_append (isRun : body ∈ run.matches')
    (stops : Stops body rest) : splitDigits (body ++ rest) = (body, rest) := by
  have notDigit : ∀ c ∈ rest.head?, c.isDigit = false :=
    fun c isHead => (stops c isHead).1
  rcases mem_run_iff.mp isRun with areDigits | ⟨whole, fraction, isWhole,
    isFraction, rfl⟩
  · simp only [splitDigits, takeWhile_append_of_stops areDigits notDigit,
      dropWhile_append_of_stops areDigits notDigit]
    split
    next fraction =>
      have isDigit := areDigits '.' ((stops '.' rfl).2 rfl)
      contradiction
    next => rfl
  · have beforePoint : ∀ c ∈ ('.' :: (fraction ++ rest)).head?,
        c.isDigit = false := by
      rintro c ⟨⟩
      rfl
    rw [List.append_assoc, List.cons_append]
    simp only [splitDigits, takeWhile_append_of_stops isWhole beforePoint,
      dropWhile_append_of_stops isWhole beforePoint,
      takeWhile_append_of_stops isFraction notDigit,
      dropWhile_append_of_stops isFraction notDigit]

theorem Stops.of_signs {signs unit : List Char} (isSigns : signs ∈ sign.matches')
    (stops : Stops (signs ++ body) unit) : Stops body unit := by
  intro c isHead
  obtain ⟨notDigit, hasPoint⟩ := stops c isHead
  refine ⟨notDigit, fun isPoint => ?_⟩
  exact (List.mem_append.mp (hasPoint isPoint)).resolve_left
    (point_notMem_of_sign isSigns)

theorem read?_eq_some_iff {text : String} {dimension : Dimension} :
    read? text = some dimension ↔
      text.toList = dimension.number.toList ++ dimension.unit.toList ∧
        IsStart dimension.number.toList ∧
        Stops dimension.number.toList dimension.unit.toList := by
  constructor
  · intro isRead
    obtain ⟨signed, isSigns⟩ := splitSign_isSplit text.toList
    obtain ⟨split, isRun, stops⟩ := splitDigits_isSplit (splitSign text.toList).2
    simp only [read?, Option.ite_none_right_eq_some, Option.some.injEq] at isRead
    obtain ⟨hasDigit, rfl⟩ := isRead
    simp only [String.toList_ofList]
    refine ⟨?_, ⟨_, isSigns, _, isRun, hasDigit, rfl⟩, ?_⟩
    · rw [List.append_assoc, split, signed]
    · intro c isHead
      refine ⟨(stops c isHead).1, fun isPoint => ?_⟩
      exact List.mem_append_right _ ((stops c isHead).2 isPoint)
  · obtain ⟨number, unit⟩ := dimension
    rintro ⟨whole, ⟨signs, isSigns, body, isRun, hasDigit, isNumber⟩, stops⟩
    have unsigned : ∀ c ∈ (body ++ unit.toList).head?, isSign c = false := by
      rw [List.head?_append_of_ne_nil _ (ne_nil_of_any hasDigit)]
      exact isSign_head?_run isRun
    rw [isNumber] at stops whole
    rw [List.append_assoc] at whole
    simp only [read?, whole, splitSign_append isSigns unsigned,
      splitDigits_append isRun (stops.of_signs isSigns), hasDigit, if_true]
    rw [← isNumber, String.ofList_toList, String.ofList_toList]

theorem mem_decimal_iff {number : List Char} :
    number ∈ decimal.matches' ↔
      IsStart number ∧ number.getLast? ≠ some '.' := by
  rw [decimal, RegularExpression.matches'_mul, Language.mem_mul]
  constructor
  · rintro ⟨signs, isSigns, body, isMantissa, rfl⟩
    obtain ⟨isRun, hasDigit, notPoint⟩ := mem_mantissa_iff_mem_run.mp isMantissa
    refine ⟨⟨signs, isSigns, body, isRun, hasDigit, rfl⟩, ?_⟩
    rwa [List.getLast?_append_of_ne_nil _ (ne_nil_of_any hasDigit)]
  · rintro ⟨⟨signs, isSigns, body, isRun, hasDigit, rfl⟩, notPoint⟩
    rw [List.getLast?_append_of_ne_nil _ (ne_nil_of_any hasDigit)] at notPoint
    exact ⟨signs, isSigns, body,
      mem_mantissa_iff_mem_run.mpr ⟨isRun, hasDigit, notPoint⟩, rfl⟩

theorem wellFormed?_eq_some_iff {text : String} {dimension : Dimension} :
    wellFormed? text = some dimension ↔
      text.toList = dimension.number.toList ++ dimension.unit.toList ∧
        dimension.number.toList ∈ decimal.matches' ∧
        (∀ c ∈ dimension.unit.toList.head?, c.isDigit = false) ∧
        '.' ∉ dimension.unit.toList := by
  rw [wellFormed?, Option.filter_eq_some_iff, read?_eq_some_iff,
    mem_decimal_iff, isWellFormed]
  simp only [Bool.and_eq_true, bne_iff_ne, Bool.not_eq_true',
    List.contains_eq_mem, decide_eq_false_iff_not]
  constructor
  · rintro ⟨⟨whole, isStart, stops⟩, notPoint, unpointed⟩
    exact ⟨whole, ⟨isStart, notPoint⟩, fun c isHead => (stops c isHead).1,
      unpointed⟩
  · rintro ⟨whole, ⟨isStart, notPoint⟩, notDigit, unpointed⟩
    refine ⟨⟨whole, isStart, ?_⟩, notPoint, unpointed⟩
    intro c isHead
    refine ⟨notDigit c isHead, ?_⟩
    rintro rfl
    exact absurd (List.mem_of_head? isHead) unpointed

end Dimension

/-! Cutting a text at its exponent mark and at its point. -/

namespace Decimal

open Numeral Dimension

variable {text : List Char}

theorem readDigits?_eq_some_iff {value : Nat} :
    readDigits? text = some value ↔
      text ∈ Numeral.digits.matches' ∧ value = digitsValue text := by
  rw [readDigits?, Option.ite_none_right_eq_some, mem_digits_iff,
    Bool.and_eq_true_iff, List.all_eq_true, Option.some_inj, eq_comm (a := value)]
  simp only [Bool.not_eq_true', List.isEmpty_eq_false_iff]
  rfl

theorem bne_point_of_areDigits (areDigits : AreDigits text) :
    ∀ c ∈ text, (c != '.') = true := by
  intro c member
  rw [bne_iff_ne]
  rintro rfl
  exact areDigits.point_notMem member

theorem cut_without_point (areDigits : AreDigits text) :
    text.takeWhile (· != '.') = text ∧ text.dropWhile (· != '.') = [] := by
  have inside := bne_point_of_areDigits areDigits
  exact ⟨List.takeWhile_eq_self_iff.mpr inside,
    List.dropWhile_eq_nil_iff.mpr inside⟩

theorem cut_at_point (isWhole : AreDigits text) (fraction : List Char) :
    (text ++ '.' :: fraction).takeWhile (· != '.') = text ∧
      (text ++ '.' :: fraction).dropWhile (· != '.') = '.' :: fraction := by
  have inside := bne_point_of_areDigits isWhole
  have atPoint : ∀ c ∈ ('.' :: fraction).head?, (c != '.') = false := by
    rintro c ⟨⟩
    rfl
  exact ⟨takeWhile_append_of_stops inside atPoint,
    dropWhile_append_of_stops inside atPoint⟩

theorem readMantissa?_eq_some_iff {value : Nat × Nat} :
    readMantissa? text = some value ↔
      text ∈ Numeral.digits.matches' ∧ value = (digitsValue text, 0) ∨
        ∃ whole fraction, AreDigits whole ∧
          fraction ∈ Numeral.digits.matches' ∧
          text = whole ++ '.' :: fraction ∧
          value = (digitsValue (whole ++ fraction), fraction.length) := by
  constructor
  · intro isRead
    have cut : text.takeWhile (· != '.') ++ text.dropWhile (· != '.') = text :=
      List.takeWhile_append_dropWhile
    have stops := stops_dropWhile (· != '.') text
    simp only [readMantissa?] at isRead
    split at isRead
    next noPoint =>
      rw [noPoint, List.append_nil] at cut
      obtain ⟨value, isDigits, rfl⟩ := Option.map_eq_some_iff.mp isRead
      rw [cut] at isDigits
      obtain ⟨areDigits, rfl⟩ := readDigits?_eq_some_iff.mp isDigits
      exact .inl ⟨areDigits, rfl⟩
    next mark fraction hasPoint =>
      rw [hasPoint] at cut stops
      have isMark : mark = '.' := by simpa using stops mark rfl
      subst isMark
      split at isRead
      next => contradiction
      next notEmpty =>
        obtain ⟨value, isDigits, rfl⟩ := Option.map_eq_some_iff.mp isRead
        obtain ⟨areDigits, rfl⟩ := readDigits?_eq_some_iff.mp isDigits
        obtain ⟨-, areDigits⟩ := mem_digits_iff.mp areDigits
        obtain ⟨isWhole, isFraction⟩ := List.forall_mem_append.mp areDigits
        refine .inr ⟨_, fraction, isWhole, mem_digits_iff.mpr ⟨?_, isFraction⟩,
          cut.symm, rfl⟩
        simpa using notEmpty
  · rintro (⟨isDigits, rfl⟩ | ⟨whole, fraction, isWhole, isFraction, rfl, rfl⟩)
    · obtain ⟨taken, left⟩ := cut_without_point (mem_digits_iff.mp isDigits).2
      simp only [readMantissa?, taken, left,
        readDigits?_eq_some_iff.mpr ⟨isDigits, rfl⟩, Option.map_some]
    · obtain ⟨nonempty, areDigits⟩ := mem_digits_iff.mp isFraction
      obtain ⟨taken, left⟩ := cut_at_point isWhole fraction
      have isDigits : whole ++ fraction ∈ Numeral.digits.matches' :=
        mem_digits_iff.mpr ⟨List.append_ne_nil_of_right_ne_nil _ nonempty,
          List.forall_mem_append.mpr ⟨isWhole, areDigits⟩⟩
      simp only [readMantissa?, taken, left,
        readDigits?_eq_some_iff.mpr ⟨isDigits, rfl⟩, Option.map_some,
        List.isEmpty_eq_false_iff.mpr nonempty, Bool.false_eq_true, if_false]

theorem isSome_readMantissa?_iff :
    (readMantissa? text).isSome = true ↔ text ∈ mantissa.matches' := by
  rw [Option.isSome_iff_exists, mem_mantissa_iff]
  simp only [readMantissa?_eq_some_iff, mem_digits_iff]
  constructor
  · rintro ⟨_, ⟨isDigits, -⟩ | ⟨whole, fraction, isWhole, ⟨nonempty, isFraction⟩,
      rfl, -⟩⟩
    · exact .inl isDigits
    · exact .inr ⟨whole, fraction, isWhole, nonempty, isFraction, rfl⟩
  · rintro (isDigits | ⟨whole, fraction, isWhole, nonempty, isFraction, rfl⟩)
    · exact ⟨_, .inl ⟨isDigits, rfl⟩⟩
    · exact ⟨_, .inr ⟨whole, fraction, isWhole, ⟨nonempty, isFraction⟩, rfl, rfl⟩⟩

theorem readSign_eq (text : List Char) :
    readSign text =
      ((splitSign text).1 == ['-'], (splitSign text).2) := by
  refine Prod.ext ?_ (readSign_rest text)
  fun_cases readSign text with
  | case1 => rfl
  | case2 => rfl
  | case3 _ notMinus _ =>
      cases text with
      | nil => rfl
      | cons c rest =>
          rw [splitSign]
          split
          next =>
            symm
            rw [beq_eq_false_iff_ne]
            rintro ⟨⟩
            exact notMinus rest rfl
          next => rfl

theorem mem_integer_iff :
    text ∈ integer.matches' ↔ (splitSign text).2 ∈ Numeral.digits.matches' := by
  rw [integer, RegularExpression.matches'_mul, Language.mem_mul]
  constructor
  · rintro ⟨signs, isSigns, rest, isDigits, rfl⟩
    rwa [splitSign_append isSigns (isSign_head?_digits isDigits)]
  · intro isDigits
    obtain ⟨whole, isSigns⟩ := splitSign_isSplit text
    exact ⟨_, isSigns, _, isDigits, whole⟩

theorem readExponent?_cons (mark : Char) (text : List Char) :
    readExponent? (mark :: text) =
      (readDigits? (splitSign text).2).map fun value : Nat =>
        if (splitSign text).1 = ['-'] then -(value : Int) else value := by
  simp only [readExponent?, readSign_eq, beq_iff_eq]
  cases readDigits? (splitSign text).2 with
  | none => rfl
  | some value => rfl

/-- What may follow a mantissa is read if it starts with a mark. -/
theorem mem_scale_iff :
    text ∈ (1 + Numeral.exponent).matches' ↔
      (∀ c ∈ text.head?, isExponentMark c = true) ∧
        (readExponent? text).isSome = true := by
  rw [mem_optional_iff, mem_exponent_iff]
  cases text with
  | nil => simp [readExponent?]
  | cons mark rest =>
      have isRead : (readExponent? (mark :: rest)).isSome = true ↔
          rest ∈ integer.matches' := by
        rw [readExponent?_cons, Option.isSome_map, mem_integer_iff,
          Option.isSome_iff_exists]
        simp only [readDigits?_eq_some_iff, exists_eq_right]
      rw [isRead]
      simp

theorem not_isExponentMark_of_isDigit {c : Char} (isDigit : c.isDigit = true) :
    (!isExponentMark c) = true := by
  rw [Bool.not_eq_true', isExponentMark, Bool.or_eq_false_iff,
    beq_eq_false_iff_ne, beq_eq_false_iff_ne]
  constructor
  · rintro rfl
    contradiction
  · rintro rfl
    contradiction

theorem not_isExponentMark_of_mantissa (isMantissa : text ∈ mantissa.matches') :
    ∀ c ∈ text, (!isExponentMark c) = true := by
  rcases mem_mantissa_iff.mp isMantissa with ⟨-, areDigits⟩ | ⟨whole, fraction,
    isWhole, -, isFraction, rfl⟩
  · exact fun c member => not_isExponentMark_of_isDigit (areDigits c member)
  · intro c member
    rcases List.mem_append.mp member with inWhole | inRest
    · exact not_isExponentMark_of_isDigit (isWhole c inWhole)
    rcases List.mem_cons.mp inRest with rfl | inFraction
    · rfl
    · exact not_isExponentMark_of_isDigit (isFraction c inFraction)

theorem cut_at_mark (isMantissa : text ∈ mantissa.matches') {scale : List Char}
    (starts : ∀ c ∈ scale.head?, isExponentMark c = true) :
    (text ++ scale).takeWhile (fun c => !isExponentMark c) = text ∧
      (text ++ scale).dropWhile (fun c => !isExponentMark c) = scale := by
  have inside := not_isExponentMark_of_mantissa isMantissa
  have stops : ∀ c ∈ scale.head?, (!isExponentMark c) = false := by
    intro c isHead
    rw [starts c isHead]
    rfl
  exact ⟨takeWhile_append_of_stops inside stops,
    dropWhile_append_of_stops inside stops⟩

theorem isSign_head?_mantissa (isMantissa : text ∈ mantissa.matches')
    (rest : List Char) : ∀ c ∈ (text ++ rest).head?, isSign c = false := by
  obtain ⟨isRun, hasDigit, -⟩ := mem_mantissa_iff_mem_run.mp isMantissa
  rw [List.head?_append_of_ne_nil _ (ne_nil_of_any hasDigit)]
  exact isSign_head?_run isRun

/-- A number is read part by part: its sign, its mantissa and its exponent. -/
theorem parse?_eq_some_iff {text : String} {decimal : Decimal} :
    parse? text = some decimal ↔
      ∃ signs ∈ sign.matches', ∃ body scale,
        text.toList = signs ++ (body ++ scale) ∧
        (∀ c ∈ scale.head?, isExponentMark c = true) ∧
        ∃ value power, readMantissa? body = some value ∧
          readExponent? scale = some power ∧
          decimal = ⟨signs == ['-'], value.1, power - value.2⟩ := by
  constructor
  · intro isRead
    obtain ⟨signed, isSigns⟩ := splitSign_isSplit text.toList
    simp only [parse?, readSign_eq] at isRead
    split at isRead
    next value places power isMantissa isExponent =>
      refine ⟨_, isSigns, _, _, ?_, ?_, _, _, isMantissa, isExponent, ?_⟩
      · rw [List.takeWhile_append_dropWhile, signed]
      · intro c isHead
        simpa using stops_dropWhile _ _ c isHead
      · exact (Option.some.inj isRead).symm
    next => contradiction
  · rintro ⟨signs, isSigns, body, scale, whole, starts, value, power, isRead,
      isScale, rfl⟩
    have isMantissa : body ∈ mantissa.matches' :=
      isSome_readMantissa?_iff.mp (Option.isSome_of_eq_some isRead)
    have unsigned := isSign_head?_mantissa isMantissa scale
    obtain ⟨taken, left⟩ := cut_at_mark isMantissa starts
    simp only [parse?, readSign_eq, whole, splitSign_append isSigns unsigned,
      taken, left, isRead, isScale]

theorem isSome_parse?_iff {text : String} :
    (parse? text).isSome = true ↔ text.toList ∈ number.matches' := by
  rw [Option.isSome_iff_exists, mem_number_iff]
  simp only [parse?_eq_some_iff, mem_scale_iff, ← isSome_readMantissa?_iff,
    Option.isSome_iff_exists]
  constructor
  · rintro ⟨_, signs, isSigns, body, scale, whole, starts, value, power, isRead,
      isScale, -⟩
    exact ⟨signs, isSigns, body, ⟨value, isRead⟩, scale,
      ⟨starts, power, isScale⟩, whole⟩
  · rintro ⟨signs, isSigns, body, ⟨value, isRead⟩, scale,
      ⟨starts, power, isScale⟩, whole⟩
    exact ⟨_, signs, isSigns, body, scale, whole, starts, value, power, isRead,
      isScale, rfl⟩

theorem stops_scale {scale : List Char}
    (isScale : scale ∈ (1 + Numeral.exponent).matches') (number : List Char) :
    Stops number scale := by
  intro c isHead
  have isMark := (mem_scale_iff.mp isScale).1 c isHead
  rw [isExponentMark, Bool.or_eq_true_iff, beq_iff_eq, beq_iff_eq] at isMark
  rcases isMark with rfl | rfl
  · exact ⟨rfl, fun isPoint => absurd isPoint (by decide)⟩
  · exact ⟨rfl, fun isPoint => absurd isPoint (by decide)⟩

/-- What is taken off the start of a number is all of it but its exponent. -/
theorem mem_number_iff_read? {text : String} :
    text.toList ∈ Numeral.number.matches' ↔
      ∃ dimension, read? text = some dimension ∧
        dimension.number.toList.getLast? ≠ some '.' ∧
        dimension.unit.toList ∈ (1 + Numeral.exponent).matches' := by
  simp only [Numeral.number, RegularExpression.matches'_mul, Language.mem_mul,
    read?_eq_some_iff]
  constructor
  · rintro ⟨start, isDecimal, scale, isScale, whole⟩
    obtain ⟨isStart, notPoint⟩ := mem_decimal_iff.mp isDecimal
    refine ⟨⟨String.ofList start, String.ofList scale⟩, ?_⟩
    simp only [String.toList_ofList]
    exact ⟨⟨whole.symm, isStart, stops_scale isScale start⟩, notPoint, isScale⟩
  · rintro ⟨dimension, ⟨whole, isStart, -⟩, notPoint, isScale⟩
    exact ⟨_, mem_decimal_iff.mpr ⟨isStart, notPoint⟩, _, isScale, whole.symm⟩

end Decimal

namespace Quantity

theorem isNumber_iff {text : String} :
    isNumber text = true ↔ text.toList ∈ Numeral.number.matches' :=
  Decimal.isSome_parse?_iff

/-- Both scans find the numbers: the one that cuts the text, and the one that
takes a number off its start and leaves nothing or an exponent. -/
theorem isNumber_scans (text : String) :
    (isNumber text = true ↔ text.toList ∈ Numeral.number.matches') ∧
    (isNumber text = true ↔
      ∃ dimension, Dimension.read? text = some dimension ∧
        dimension.number.toList.getLast? ≠ some '.' ∧
        (dimension.unit = "" ∨
          dimension.unit.toList ∈ Numeral.exponent.matches')) := by
  refine ⟨isNumber_iff, ?_⟩
  rw [isNumber_iff, Decimal.mem_number_iff_read?]
  simp only [Numeral.mem_optional_iff, String.toList_eq_nil_iff]

end Quantity

end StyleValue
