import StyleValue.Proofs.Quantity.Scanning
import StyleValue.Quantity.Item

/-! The words that count as each kind of quantity, and that no word but a lone
zero counts as two. Kinds are told apart by their units; a number may leave an
exponent where others have their unit, and no unit looks like one. -/

namespace StyleValue

namespace Numeral

open RegularExpression (char)

def literal (word : String) : RegularExpression Char :=
  word.toList.foldr (fun c rest => char c * rest) 1

def anyOf (words : List String) : RegularExpression Char :=
  words.foldr (fun word others => literal word + others) 0

/-- A decimal with one of the units behind it. -/
def measure (units : List String) : RegularExpression Char :=
  decimal * anyOf units

variable {text : List Char}

theorem mem_literal_iff {word : String} :
    text ∈ (literal word).matches' ↔ text = word.toList := by
  rw [literal]
  induction word.toList generalizing text with
  | nil => rfl
  | cons c rest ih =>
      rw [List.foldr_cons, RegularExpression.matches'_mul, Language.mem_mul]
      constructor
      · rintro ⟨_, rfl, more, isMore, rfl⟩
        rw [ih.mp isMore]
        rfl
      · rintro rfl
        exact ⟨[c], rfl, rest, ih.mpr rfl, rfl⟩

theorem mem_anyOf_iff {words : List String} :
    text ∈ (anyOf words).matches' ↔ ∃ word ∈ words, text = word.toList := by
  rw [anyOf]
  induction words with
  | nil => simp [Language.notMem_zero]
  | cons word others ih =>
      rw [List.foldr_cons, RegularExpression.matches'_add, Language.mem_add, ih,
        mem_literal_iff, List.exists_mem_cons_iff]

theorem mem_measure_iff {units : List String} :
    text ∈ (measure units).matches' ↔
      ∃ number ∈ decimal.matches', ∃ unit ∈ units,
        text = number ++ unit.toList := by
  simp only [measure, RegularExpression.matches'_mul, Language.mem_mul,
    mem_anyOf_iff]
  constructor
  · rintro ⟨number, isDecimal, _, ⟨unit, isUnit, rfl⟩, rfl⟩
    exact ⟨number, isDecimal, unit, isUnit, rfl⟩
  · rintro ⟨number, isDecimal, unit, isUnit, rfl⟩
    exact ⟨number, isDecimal, unit.toList, ⟨unit, isUnit, rfl⟩, rfl⟩

theorem mem_number_of_integer (isInteger : text ∈ integer.matches') :
    text ∈ number.matches' := by
  obtain ⟨signs, isSigns, rest, isDigits, rfl⟩ := Language.mem_mul.mp isInteger
  exact mem_number_of_decimal (Language.append_mem_mul isSigns
    (mem_mantissa_iff.mpr (.inl (mem_digits_iff.mp isDigits))))

end Numeral

namespace Quantity

variable {text : String}

/-- Nothing of the unit would be taken for a part of the number before it. -/
def IsUnit (unit : String) : Prop :=
  (∀ c ∈ unit.toList.head?, c.isDigit = false) ∧ '.' ∉ unit.toList

theorem isUnit_iff {unit : String} :
    IsUnit unit ↔
      (unit.toList.head?.all (fun c => !c.isDigit) &&
        !unit.toList.contains '.') = true := by
  simp [IsUnit, Option.all_eq_true]

instance (unit : String) : Decidable (IsUnit unit) :=
  decidable_of_iff' _ isUnit_iff

theorem hasUnit_iff {units : List String}
    (areUnits : ∀ unit ∈ units, IsUnit unit) :
    hasUnit units text = true ↔
      text.toList ∈ (Numeral.measure units).matches' := by
  simp only [hasUnit, Option.any_eq_true, List.contains_iff_mem,
    Dimension.wellFormed?_eq_some_iff, Numeral.mem_measure_iff]
  constructor
  · rintro ⟨dimension, ⟨whole, isDecimal, -⟩, isUnit⟩
    exact ⟨_, isDecimal, _, isUnit, whole⟩
  · rintro ⟨number, isDecimal, unit, isUnit, whole⟩
    refine ⟨⟨String.ofList number, unit⟩, ?_, isUnit⟩
    simp only [String.toList_ofList]
    exact ⟨whole, isDecimal, areUnits unit isUnit⟩

theorem isZero_iff : isZero text = true ↔ text = "0" := by
  constructor
  · intro isZero
    obtain ⟨dimension, isRead, isZero⟩ := (Option.any_eq_true _ _).mp isZero
    obtain ⟨whole, -⟩ := Dimension.wellFormed?_eq_some_iff.mp isRead
    rw [Dimension.isZero, Bool.and_eq_true_iff, beq_iff_eq,
      String.isEmpty_iff] at isZero
    rw [isZero.1, isZero.2] at whole
    exact String.toList_inj.mp whole
  · rintro rfl
    decide +kernel

theorem isInteger_iff :
    isInteger text = true ↔ text.toList ∈ Numeral.integer.matches' := by
  simp only [isInteger, Option.any_eq_true, Dimension.read?_eq_some_iff,
    Bool.and_eq_true, String.isEmpty_iff, Bool.not_eq_true',
    List.contains_eq_mem, decide_eq_false_iff_not]
  constructor
  · rintro ⟨dimension, ⟨whole, ⟨signs, isSigns, body, isRun, hasDigit, isNumber⟩,
      -⟩, isEmpty, noPoint⟩
    rw [isNumber, isEmpty, String.toList_empty, List.append_nil] at whole
    rw [whole] at noPoint ⊢
    rcases Numeral.mem_run_iff.mp isRun with areDigits | ⟨before, fraction, -, -,
      rfl⟩
    · exact Language.append_mem_mul isSigns (Numeral.mem_digits_iff.mpr
        ⟨Dimension.ne_nil_of_any hasDigit, areDigits⟩)
    · simp at noPoint
  · intro isInteger
    obtain ⟨signs, isSigns, rest, isDigits, whole⟩ := Language.mem_mul.mp isInteger
    obtain ⟨nonempty, areDigits⟩ := Numeral.mem_digits_iff.mp isDigits
    refine ⟨⟨text, ""⟩, ⟨by simp, ⟨signs, isSigns, rest, ?_,
      areDigits.any_isDigit nonempty, whole.symm⟩, nofun⟩, rfl, ?_⟩
    · exact Numeral.mem_run_iff.mpr (.inl areDigits)
    · rw [← whole, List.mem_append, not_or]
      exact ⟨Numeral.point_notMem_of_sign isSigns, areDigits.point_notMem⟩

/-- The kinds with a unit, and the units of each. -/
def measures : List ((Node → Bool) × List String) :=
  [(Node.isPercentage, ["%"]), (Node.isLength, lengthUnits),
    (Node.isAngle, angleUnits), (Node.isTime, timeUnits),
    (Node.isResolution, resolutionUnits), (Node.isFlex, ["fr"]),
    (Node.isMultiplier, ["x"])]

theorem exists_unit_of_hasUnit {units : List String}
    (isMeasure : hasUnit units text = true) :
    ∃ dimension, Dimension.read? text = some dimension ∧
      dimension.unit ∈ units := by
  obtain ⟨dimension, isRead, isUnit⟩ := (Option.any_eq_true _ _).mp isMeasure
  exact ⟨dimension, (Option.filter_eq_some_iff.mp isRead).1,
    List.contains_iff_mem.mp isUnit⟩

theorem exists_unit_of_measures (notZero : text ≠ "0") :
    ∀ measure ∈ measures, measure.1 (.word text) = true →
      ∃ dimension, Dimension.read? text = some dimension ∧
        dimension.unit ∈ measure.2 := by
  have notLoneZero : isZero text = false :=
    Bool.eq_false_iff.mpr (mt isZero_iff.mp notZero)
  simp only [measures, List.forall_mem_cons]
  refine ⟨exists_unit_of_hasUnit, ?_, ?_, exists_unit_of_hasUnit,
    exists_unit_of_hasUnit, ?_, exists_unit_of_hasUnit, nofun⟩
  · intro isLength
    have isMeasure : (isZero text || hasUnit lengthUnits text) = true := isLength
    rw [notLoneZero] at isMeasure
    exact exists_unit_of_hasUnit isMeasure
  · intro isAngle
    have isMeasure : (isZero text || hasUnit angleUnits text) = true := isAngle
    rw [notLoneZero] at isMeasure
    exact exists_unit_of_hasUnit isMeasure
  · intro isFlex
    obtain ⟨dimension, isRead, isShare⟩ := (Option.any_eq_true _ _).mp isFlex
    have isUnit := beq_iff_eq.mp (Bool.and_eq_true_iff.mp isShare).1
    exact ⟨dimension, (Option.filter_eq_some_iff.mp isRead).1,
      List.mem_singleton.mpr isUnit⟩

theorem units_apart :
    measures.Pairwise fun first second => ∀ unit ∈ first.2, unit ∉ second.2 := by
  decide +kernel

theorem isUnit_of_measures :
    ∀ measure ∈ measures, ∀ unit ∈ measure.2, IsUnit unit := by
  decide +kernel

/-- No unit is empty or looks like an exponent. -/
theorem not_scale_of_unit :
    ∀ measure ∈ measures, ∀ unit ∈ measure.2,
      unit.toList ∉ (1 + Numeral.exponent).matches' := by
  decide +kernel

/-- The kinds of quantities. A whole number is a number, so both are one kind. -/
def kinds : List (Node → Bool) :=
  [fun node => node.isInteger || node.isNumber, Node.isPercentage,
    Node.isLength, Node.isAngle, Node.isTime, Node.isResolution, Node.isFlex,
    Node.isMultiplier]

theorem isNumber_of_isInteger (passed : isInteger text = true) :
    isNumber text = true :=
  isNumber_iff.mpr (Numeral.mem_number_of_integer (isInteger_iff.mp passed))

theorem kinds_apart (notZero : text ≠ "0") :
    kinds.Pairwise fun first second =>
      ¬ (first (.word text) = true ∧ second (.word text) = true) := by
  have split : kinds = (fun node => node.isInteger || node.isNumber) ::
      measures.map Prod.fst := rfl
  rw [split, List.pairwise_cons, List.forall_mem_map, List.pairwise_map]
  have hasUnit := exists_unit_of_measures notZero
  constructor
  · rintro measure member ⟨isNumeric, isMeasure⟩
    have isNumber : isNumber text = true :=
      (Bool.or_eq_true_iff.mp isNumeric).elim isNumber_of_isInteger id
    obtain ⟨dimension, isRead, -, isScale⟩ :=
      Decimal.mem_number_iff_read?.mp (isNumber_iff.mp isNumber)
    obtain ⟨other, isOther, isUnit⟩ := hasUnit measure member isMeasure
    have same : dimension = other := Option.some.inj (isRead.symm.trans isOther)
    subst same
    exact not_scale_of_unit measure member _ isUnit isScale
  · refine units_apart.imp_of_mem ?_
    rintro first second isFirst isSecond apart ⟨isMeasure, isSecondMeasure⟩
    obtain ⟨dimension, isRead, isUnit⟩ := hasUnit first isFirst isMeasure
    obtain ⟨other, isOther, isSecondUnit⟩ :=
      hasUnit second isSecond isSecondMeasure
    have same : dimension = other := Option.some.inj (isRead.symm.trans isOther)
    subst same
    exact apart _ isUnit isSecondUnit

theorem isZero_or_hasUnit_iff {units : List String}
    (areUnits : ∀ unit ∈ units, IsUnit unit) :
    (isZero text || hasUnit units text) = true ↔
      text.toList ∈ (Numeral.measure units).matches' ∨ text = "0" := by
  rw [Bool.or_eq_true_iff, isZero_iff, hasUnit_iff areUnits, or_comm]

/-- Each kind of quantity has exactly the words that its digits and units say,
and only a lone zero counts as more than one kind. -/
theorem kinds_of_word (text : String) :
    ((Node.word text).isInteger = true ↔
      text.toList ∈ Numeral.integer.matches') ∧
    ((Node.word text).isPercentage = true ↔
      text.toList ∈ (Numeral.measure ["%"]).matches') ∧
    ((Node.word text).isTime = true ↔
      text.toList ∈ (Numeral.measure timeUnits).matches') ∧
    ((Node.word text).isResolution = true ↔
      text.toList ∈ (Numeral.measure resolutionUnits).matches') ∧
    ((Node.word text).isMultiplier = true ↔
      text.toList ∈ (Numeral.measure ["x"]).matches') ∧
    ((Node.word text).isLength = true ↔
      text.toList ∈ (Numeral.measure lengthUnits).matches' ∨ text = "0") ∧
    ((Node.word text).isAngle = true ↔
      text.toList ∈ (Numeral.measure angleUnits).matches' ∨ text = "0") ∧
    ((Node.word text).isInteger = true → (Node.word text).isNumber = true) ∧
    (text ≠ "0" → kinds.Pairwise fun first second =>
      ¬ (first (.word text) = true ∧ second (.word text) = true)) := by
  have areUnits := isUnit_of_measures
  simp only [measures, List.forall_mem_cons] at areUnits
  obtain ⟨percentage, length, angle, time, resolution, -, multiplier, -⟩ :=
    areUnits
  exact ⟨isInteger_iff, hasUnit_iff (List.forall_mem_cons.mpr percentage),
    hasUnit_iff time, hasUnit_iff resolution,
    hasUnit_iff (List.forall_mem_cons.mpr multiplier),
    isZero_or_hasUnit_iff length, isZero_or_hasUnit_iff angle,
    isNumber_of_isInteger, kinds_apart⟩

/-- A unit that starts like an exponent makes a length and no number. -/
theorem kinds_of_word_ex :
    "-.5ex" ≠ "0" ∧ (Node.word "-.5ex").isLength = true ∧
      (Node.word "-.5ex").isNumber = false := by
  obtain ⟨-, -, -, -, -, isLength_iff, -, -, apart⟩ := kinds_of_word "-.5ex"
  have notZero : "-.5ex" ≠ "0" := by decide
  have isLength : (Node.word "-.5ex").isLength = true :=
    isLength_iff.mpr (.inl (by decide +kernel))
  refine ⟨notZero, isLength, ?_⟩
  rw [Bool.eq_false_iff]
  intro isNumber
  have numberApart := (List.pairwise_cons.mp (apart notZero)).1 Node.isLength
    (by simp)
  exact numberApart ⟨Bool.or_eq_true_iff.mpr (.inr isNumber), isLength⟩

end Quantity

end StyleValue
