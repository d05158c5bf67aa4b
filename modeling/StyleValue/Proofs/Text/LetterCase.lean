import StyleValue.Name.Identifier
import StyleValue.Paint.Color
import StyleValue.Text.Symbol

/-! Which tests of a text look at letter case. Those for names do not. Those
for quantities do, because of their units, but they pass over every text that
does not start with a number. -/

namespace StyleValue

/-! Characters. -/

theorem lowerCode_toNat (c : Char) :
    Symbol.lowerCode c.toNat = c.toLower.toNat := by
  unfold Symbol.lowerCode Char.toLower
  by_cases upper : c.val ≥ 'A'.val ∧ c.val ≤ 'Z'.val
  · have bounds : 'A'.toNat ≤ c.toNat ∧ c.toNat ≤ 'Z'.toNat := upper
    rw [if_pos bounds, dif_pos upper]
    have small : c.toNat ≤ 90 := bounds.2
    change c.toNat + 32 = (c.val + 32).toNat
    rw [UInt32.toNat_add]
    change c.toNat + 32 = (c.toNat + 32) % 2 ^ 32
    omega
  · have bounds : ¬ ('A'.toNat ≤ c.toNat ∧ c.toNat ≤ 'Z'.toNat) := upper
    rw [if_neg bounds, dif_neg upper]

theorem toNat_toLower (c : Char) :
    c.toLower.toNat =
      if 65 ≤ c.toNat ∧ c.toNat ≤ 90 then c.toNat + 32 else c.toNat :=
  (lowerCode_toNat c).symm

theorem between_iff {first last c : Char} :
    (decide (first ≤ c) && decide (c ≤ last)) = true ↔
      first.toNat ≤ c.toNat ∧ c.toNat ≤ last.toNat := by
  simp only [Bool.and_eq_true, decide_eq_true_eq, Char.le_def,
    UInt32.le_iff_toNat_le]
  rfl

theorem isDigit_iff {c : Char} :
    c.isDigit = true ↔ 48 ≤ c.toNat ∧ c.toNat ≤ 57 := by
  simp only [Char.isDigit, Bool.and_eq_true, decide_eq_true_eq, ge_iff_le,
    UInt32.le_iff_toNat_le]
  rfl

theorem isAlpha_iff {c : Char} :
    c.isAlpha = true ↔
      65 ≤ c.toNat ∧ c.toNat ≤ 90 ∨ 97 ≤ c.toNat ∧ c.toNat ≤ 122 := by
  change (decide (c.val ≥ 'A'.val ∧ c.val ≤ 'Z'.val) ||
    (decide (c.val ≥ 'a'.val) && decide (c.val ≤ 'z'.val))) = true ↔ _
  simp only [Bool.or_eq_true, Bool.and_eq_true, decide_eq_true_eq, ge_iff_le,
    UInt32.le_iff_toNat_le]
  rfl

@[simp] theorem isDigit_toLower (c : Char) : c.toLower.isDigit = c.isDigit := by
  rw [Bool.eq_iff_iff, isDigit_iff, isDigit_iff, toNat_toLower]
  split <;> omega

@[simp] theorem isAlpha_toLower (c : Char) : c.toLower.isAlpha = c.isAlpha := by
  rw [Bool.eq_iff_iff, isAlpha_iff, isAlpha_iff, toNat_toLower]
  split <;> omega

@[simp] theorem isHexDigit_toLower (c : Char) :
    isHexDigit c.toLower = isHexDigit c := by
  rw [Bool.eq_iff_iff, isHexDigit, isHexDigit, isDigit_toLower]
  rw [Bool.or_assoc, Bool.or_assoc, Bool.or_eq_true_iff, Bool.or_eq_true_iff,
    Bool.or_eq_true_iff, Bool.or_eq_true_iff]
  simp only [between_iff, toNat_toLower]
  refine or_congr_right ?_
  change _ ↔ 97 ≤ c.toNat ∧ c.toNat ≤ 102 ∨ 65 ≤ c.toNat ∧ c.toNat ≤ 70
  change 97 ≤ _ ∧ _ ≤ 102 ∨ 65 ≤ _ ∧ _ ≤ 70 ↔ _
  split <;> omega

theorem toLower_eq_iff {c mark : Char} (notLetter : mark.isAlpha = false) :
    c.toLower = mark ↔ c = mark := by
  have bounds := mt isAlpha_iff.mpr (Bool.eq_false_iff.mp notLetter)
  rw [← Char.toNat_inj, ← Char.toNat_inj, toNat_toLower]
  split <;> omega

theorem beq_toLower (mark c : Char) (notLetter : mark.isAlpha = false) :
    (c.toLower == mark) = (c == mark) := by
  rw [Bool.eq_iff_iff, beq_iff_eq, beq_iff_eq, toLower_eq_iff notLetter]

@[simp] theorem isSign_toLower (c : Char) : isSign c.toLower = isSign c := by
  rw [isSign, isSign, beq_toLower '+' c rfl, beq_toLower '-' c rfl]

theorem toLower_toLower (c : Char) : c.toLower.toLower = c.toLower := by
  have notUpper : ¬ (65 ≤ c.toLower.toNat ∧ c.toLower.toNat ≤ 90) := by
    rw [toNat_toLower]
    split <;> omega
  rw [← Char.toNat_inj, toNat_toLower c.toLower, if_neg notUpper]

/-! Names. -/

@[simp] theorem toList_lowerCase (text : String) :
    (lowerCase text).toList = text.toList.map Char.toLower :=
  String.toList_map

theorem lowerCase_eq_lowerCase_iff {text later : String} :
    lowerCase text = lowerCase later ↔
      text.toList.map Char.toLower = later.toList.map Char.toLower := by
  rw [← toList_lowerCase, ← toList_lowerCase, String.toList_inj]

@[simp] theorem lowerCase_lowerCase (text : String) :
    lowerCase (lowerCase text) = lowerCase text := by
  rw [← String.toList_inj, toList_lowerCase, toList_lowerCase, List.map_map]
  apply List.map_congr_left
  intro c _
  exact toLower_toLower c

theorem spells_toList_iff (word text : String) :
    Symbol.spells word text.toList = true ↔ lowerCase text = word := by
  have codes :
      text.toList.map (fun symbol => Symbol.lowerCode (Symbol.code symbol)) =
        (lowerCase text).toList.map Char.toNat := by
    rw [toList_lowerCase, List.map_map]
    apply List.map_congr_left
    intro c _
    exact lowerCode_toNat c
  rw [Symbol.spells, codes, beq_iff_eq,
    List.map_inj_right fun _ _ same => Char.toNat_inj.mp same,
    String.toList_inj]

/-- The test gives one answer however the letters are written. -/
def IsCaseless (test : String → Bool) : Prop :=
  ∀ text, test (lowerCase text) = test text

theorem IsCaseless.eq {test : String → Bool} (caseless : IsCaseless test)
    {text later : String} (same : lowerCase text = lowerCase later) :
    test later = test text := by
  rw [← caseless later, ← same, caseless text]

theorem isCaseless_anySameName (names : List String) :
    IsCaseless fun text => names.any (sameName text) := by
  intro text
  have same : sameName (lowerCase text) = sameName text := by
    funext name
    rw [sameName, sameName, lowerCase_lowerCase]
  exact congrArg names.any same

theorem isCaseless_ofName? : IsCaseless fun name => (Rgb.ofName? name).isSome := by
  intro name
  simp only [Rgb.ofName?, lowerCase_lowerCase]

theorem isCaseless_isHex : IsCaseless Color.isHex := by
  intro text
  simp only [Color.isHex, toList_lowerCase]
  cases text.toList with
  | nil => rfl
  | cons c digits =>
      by_cases isHash : c = '#'
      · subst c
        simp only [List.map_cons, show '#'.toLower = '#' from rfl,
          List.length_map, List.all_map, Function.comp_def,
          isHexDigit_toLower]
      · have notHash : c.toLower ≠ '#' :=
          mt (toLower_eq_iff (by decide)).mp isHash
        simp [isHash, notHash]

namespace Identifier

theorem startsWell_map_toLower (text : List Char) :
    startsWell (text.map Char.toLower) = startsWell text := by
  have hyphen (c : Char) : c.toLower = '-' ↔ c = '-' :=
    toLower_eq_iff (by decide)
  rcases text with _ | ⟨first, _ | ⟨second, _ | ⟨third, rest⟩⟩⟩
  · rfl
  · by_cases isHyphen : first = '-' <;> simp [startsWell, hyphen, isHyphen]
  · by_cases isHyphen : first = '-' <;> by_cases isSecond : second = '-' <;>
      simp [startsWell, hyphen, isHyphen, isSecond]
  · by_cases isHyphen : first = '-' <;> by_cases isSecond : second = '-' <;>
      by_cases isThird : third = '-' <;>
      simp [startsWell, hyphen, isHyphen, isSecond, isThird]

theorem isPlain_toLower (c : Char) : isPlain c.toLower = isPlain c := by
  rw [isPlain, isPlain, Char.isAlphanum, Char.isAlphanum, isAlpha_toLower,
    isDigit_toLower, beq_toLower '-' c rfl, beq_toLower '_' c rfl]

theorem isU_toLower (c : Char) :
    (c.toLower == 'u' || c.toLower == 'U') = (c == 'u' || c == 'U') := by
  rw [Bool.eq_iff_iff]
  simp only [Bool.or_eq_true, beq_iff_eq, ← Char.toNat_inj, toNat_toLower]
  change _ = 117 ∨ _ = 85 ↔ c.toNat = 117 ∨ c.toNat = 85
  split <;> omega

theorem startsEscape_map_toLower (text : List Char) :
    startsEscape (text.map Char.toLower) = startsEscape text := by
  have backslash (c : Char) : c.toLower = '\\' ↔ c = '\\' :=
    toLower_eq_iff (by decide)
  rcases text with _ | ⟨first, _ | ⟨second, rest⟩⟩
  · rfl
  · by_cases isBackslash : first = '\\' <;>
      simp [startsEscape, backslash, isBackslash]
  · by_cases isBackslash : first = '\\'
    · subst first
      have unchanged : '\\'.toLower = '\\' := rfl
      simp only [List.map_cons, unchanged, startsEscape, isHexDigit_toLower,
        isU_toLower, List.head?_map, Option.any_map]
    · simp [startsEscape, backslash, isBackslash]

theorem hasEscape_map_toLower (text : List Char) :
    hasEscape (text.map Char.toLower) = hasEscape text := by
  induction text with
  | nil => rfl
  | cons c rest ih =>
      have here := startsEscape_map_toLower (c :: rest)
      rw [List.map_cons] at here
      rw [List.map_cons, hasEscape, hasEscape, here, ih]

theorem isValid_ofList_map_toLower (text : List Char) :
    isValid (String.ofList (text.map Char.toLower)) =
      isValid (String.ofList text) := by
  simp only [isValid, String.toList_ofList, startsWell_map_toLower,
    hasEscape_map_toLower, List.all_map, Function.comp_def, isPlain_toLower]

theorem isCaseless_isValid : IsCaseless isValid := by
  intro text
  have same := isValid_ofList_map_toLower text.toList
  rwa [← toList_lowerCase, String.ofList_toList, String.ofList_toList] at same

end Identifier

/-! Words of an expression. -/

namespace Calc

theorem isOperatorChar_toLower (c : Char) :
    isOperatorChar c.toLower = isOperatorChar c := by
  rw [isOperatorChar, isOperatorChar, beq_toLower '+' c rfl,
    beq_toLower '-' c rfl, beq_toLower '*' c rfl, beq_toLower '/' c rfl]

theorem isCaseless_isEmpty : IsCaseless String.isEmpty := by
  intro text
  rw [Bool.eq_iff_iff, String.isEmpty_iff, String.isEmpty_iff,
    ← String.toList_eq_nil_iff, ← String.toList_eq_nil_iff, toList_lowerCase,
    List.map_eq_nil_iff]

theorem lowerCase_eq_singleton_iff (text : String) (mark : Char)
    (notLetter : mark.isAlpha = false) :
    lowerCase text = String.singleton mark ↔ text = String.singleton mark := by
  rw [← String.toList_inj, ← String.toList_inj, toList_lowerCase,
    String.toList_singleton, List.map_eq_singleton_iff]
  constructor
  · rintro ⟨c, isText, isMark⟩
    rw [isText, (toLower_eq_iff notLetter).mp isMark]
  · intro isText
    exact ⟨mark, isText, (toLower_eq_iff notLetter).mpr rfl⟩

theorem isCaseless_isOperator : IsCaseless isOperator := by
  intro text
  have plus := lowerCase_eq_singleton_iff text '+' rfl
  have minus := lowerCase_eq_singleton_iff text '-' rfl
  have times := lowerCase_eq_singleton_iff text '*' rfl
  have divided := lowerCase_eq_singleton_iff text '/' rfl
  rw [Bool.eq_iff_iff]
  simp only [isOperator, List.contains_iff_mem, List.mem_cons,
    List.not_mem_nil, or_false]
  exact or_congr plus (or_congr minus (or_congr times divided))

theorem isCaseless_isCompound : IsCaseless isCompound := by
  intro text
  simp only [isCompound, toList_lowerCase, ← List.map_tail, List.any_map,
    List.getLast?_map, Option.any_map, Function.comp_def, isSign_toLower,
    isOperatorChar_toLower]

end Calc

/-! Numbers. -/

namespace Dimension

/-- A digit comes first, or right after a point. -/
def startsNumber : List Char → Bool
  | [] => false
  | c :: rest => c.isDigit || (c == '.' && rest.head?.any Char.isDigit)

theorem any_isDigit_takeWhile (text : List Char) :
    (text.takeWhile Char.isDigit).any Char.isDigit =
      text.head?.any Char.isDigit := by
  cases text with
  | nil => rfl
  | cons c rest =>
      cases isDigit : c.isDigit with
      | true => simp [isDigit]
      | false => simp [isDigit]

theorem any_isDigit_splitDigits (text : List Char) :
    (splitDigits text).1.any Char.isDigit = startsNumber text := by
  unfold splitDigits
  cases text with
  | nil => rfl
  | cons c rest =>
      cases isDigit : c.isDigit with
      | true =>
          rw [startsNumber, isDigit, List.takeWhile_cons_of_pos isDigit]
          split <;> simp [isDigit]
      | false =>
          have notDigit : ¬ c.isDigit = true := Bool.eq_false_iff.mp isDigit
          rw [startsNumber, isDigit, List.takeWhile_cons_of_neg notDigit,
            List.dropWhile_cons_of_neg notDigit]
          split
          next fraction isPoint =>
            obtain ⟨rfl, rfl⟩ := List.cons.inj isPoint
            simp [any_isDigit_takeWhile]
          next notPoint =>
            have notMark : c ≠ '.' := by
              rintro rfl
              exact notPoint rest rfl
            simp [notMark]

theorem isSome_read? (text : String) :
    (read? text).isSome = startsNumber (splitSign text.toList).2 := by
  rw [← any_isDigit_splitDigits, read?]
  split
  next hasDigit => rw [hasDigit]; rfl
  next noDigit => rw [Bool.eq_false_iff.mpr noDigit]; rfl

theorem startsNumber_map_toLower (text : List Char) :
    startsNumber (text.map Char.toLower) = startsNumber text := by
  cases text with
  | nil => rfl
  | cons c rest =>
      simp only [List.map_cons, startsNumber, isDigit_toLower,
        beq_toLower '.' c rfl, List.head?_map, Option.any_map]

theorem splitSign_map_toLower (text : List Char) :
    (splitSign (text.map Char.toLower)).2 =
      (splitSign text).2.map Char.toLower := by
  cases text with
  | nil => rfl
  | cons c rest =>
      simp only [List.map_cons, splitSign, isSign_toLower]
      split <;> rfl

theorem isCaseless_isSome_read? : IsCaseless fun text => (read? text).isSome := by
  intro text
  simp only [isSome_read?, toList_lowerCase, splitSign_map_toLower,
    startsNumber_map_toLower]

end Dimension

namespace Decimal

open Dimension (startsNumber splitSign)

theorem readSign_rest (text : List Char) :
    (readSign text).2 = (splitSign text).2 := by
  fun_cases readSign text with
  | case1 => rfl
  | case2 => rfl
  | case3 _ notMinus notPlus =>
      cases text with
      | nil => rfl
      | cons c rest =>
          have notSign : isSign c = false := by
            rw [isSign, Bool.or_eq_false_iff, beq_eq_false_iff_ne,
              beq_eq_false_iff_ne]
            refine ⟨?_, ?_⟩
            · rintro rfl
              exact notPlus rest rfl
            · rintro rfl
              exact notMinus rest rfl
          simp [splitSign, notSign]

theorem startsNumber_append {text : List Char}
    (starts : startsNumber text = true) (rest : List Char) :
    startsNumber (text ++ rest) = true := by
  rcases text with _ | ⟨first, _ | ⟨second, text⟩⟩
  · contradiction
  · have isDigit : first.isDigit = true := by simpa [startsNumber] using starts
    simp [startsNumber, isDigit]
  · exact starts

theorem isDigit_head?_of_readDigits? {text : List Char} {digits : Nat}
    (read : readDigits? text = some digits) :
    text.head?.any Char.isDigit = true := by
  rw [readDigits?] at read
  split at read
  next allDigits =>
    cases text with
    | nil => simp at allDigits
    | cons c rest =>
        rw [Bool.and_eq_true_iff, List.all_cons, Bool.and_eq_true_iff]
          at allDigits
        exact allDigits.2.1
  next => contradiction

theorem startsNumber_of_isDigit_head? {text : List Char}
    (isDigit : text.head?.any Char.isDigit = true) :
    startsNumber text = true := by
  cases text with
  | nil => contradiction
  | cons c rest =>
      have first : c.isDigit = true := isDigit
      rw [startsNumber, first, Bool.true_or]

theorem startsNumber_of_readMantissa? {text : List Char} {mantissa : Nat × Nat}
    (read : readMantissa? text = some mantissa) : startsNumber text = true := by
  have whole : text.takeWhile (· != '.') ++ text.dropWhile (· != '.') = text :=
    List.takeWhile_append_dropWhile
  simp only [readMantissa?] at read
  split at read
  next noPoint =>
    obtain ⟨digits, isDigits, -⟩ := Option.map_eq_some_iff.mp read
    rw [← whole]
    exact startsNumber_append
      (startsNumber_of_isDigit_head? (isDigit_head?_of_readDigits? isDigits)) _
  next mark fraction hasPoint =>
    have isPoint := List.head?_dropWhile_not (· != '.') text
    rw [hasPoint] at isPoint
    have isMark : mark = '.' := by simpa using isPoint
    split at read
    next => contradiction
    next =>
      obtain ⟨digits, isDigits, -⟩ := Option.map_eq_some_iff.mp read
      have isDigit := isDigit_head?_of_readDigits? isDigits
      cases before : text.takeWhile (· != '.') with
      | nil =>
          rw [before, hasPoint, List.nil_append] at whole
          subst text
          rw [before, List.nil_append] at isDigit
          simp [startsNumber, isMark, isDigit]
      | cons c more =>
          rw [before] at isDigit whole
          rw [← whole]
          exact startsNumber_of_isDigit_head? isDigit

theorem startsNumber_of_parse? {text : String} {decimal : Decimal}
    (parsed : parse? text = some decimal) :
    startsNumber (splitSign text.toList).2 = true := by
  simp only [parse?, readSign_rest] at parsed
  split at parsed
  next digits places exponent isMantissa _ =>
    have starts := startsNumber_of_readMantissa? isMantissa
    have whole := startsNumber_append starts
      ((splitSign text.toList).2.dropWhile fun c => !isExponentMark c)
    rwa [List.takeWhile_append_dropWhile] at whole
  next => contradiction

end Decimal

/-- The test passes over every text that does not start with a number. -/
def IsNumeric (test : String → Bool) : Prop :=
  ∀ text, test text = true → (Dimension.read? text).isSome = true

theorem IsNumeric.or {first second : String → Bool} (numeric : IsNumeric first)
    (numeric' : IsNumeric second) :
    IsNumeric fun text => first text || second text := by
  intro text passed
  exact (Bool.or_eq_true_iff.mp passed).elim (numeric text) (numeric' text)

theorem IsNumeric.eq_false_of_sameCase {test : String → Bool}
    (numeric : IsNumeric test) {text name : String}
    (same : lowerCase text = lowerCase name)
    (notNumber : (Dimension.read? name).isSome = false) : test text = false := by
  rw [← Bool.not_eq_true]
  intro passed
  rw [Dimension.isCaseless_isSome_read?.eq same, numeric text passed]
    at notNumber
  contradiction

namespace Quantity

theorem isNumeric_read? (test : String → Dimension → Bool) :
    IsNumeric fun text => (Dimension.read? text).any (test text) := by
  intro text passed
  obtain ⟨dimension, read, -⟩ := (Option.any_eq_true _ _).mp passed
  rw [read]
  rfl

theorem isNumeric_wellFormed? (test : Dimension → Bool) :
    IsNumeric fun text => (Dimension.wellFormed? text).any test := by
  intro text passed
  obtain ⟨dimension, wellFormed, -⟩ := (Option.any_eq_true _ _).mp passed
  rw [(Option.filter_eq_some_iff.mp wellFormed).1]
  rfl

theorem isNumeric_parse? (test : Decimal → Bool) :
    IsNumeric fun text => (Decimal.parse? text).any test := by
  intro text passed
  obtain ⟨decimal, parsed, -⟩ := (Option.any_eq_true _ _).mp passed
  rw [Dimension.isSome_read?]
  exact Decimal.startsNumber_of_parse? parsed

theorem isNumeric_hasUnit (units : List String) : IsNumeric (hasUnit units) :=
  isNumeric_wellFormed? _

theorem isNumeric_isZero : IsNumeric isZero :=
  isNumeric_wellFormed? _

theorem isNumeric_isInteger : IsNumeric isInteger :=
  isNumeric_read? _

theorem isNumeric_isNumber : IsNumeric isNumber := by
  intro text passed
  rw [isNumber, Option.isSome_iff_exists] at passed
  obtain ⟨decimal, parsed⟩ := passed
  rw [Dimension.isSome_read?]
  exact Decimal.startsNumber_of_parse? parsed

theorem isNumeric_isPercentage : IsNumeric isPercentage :=
  isNumeric_hasUnit _

theorem isNumeric_isLength : IsNumeric isLength :=
  isNumeric_isZero.or (isNumeric_hasUnit _)

theorem isNumeric_isAngle : IsNumeric isAngle :=
  isNumeric_isZero.or (isNumeric_hasUnit _)

theorem isNumeric_isTime : IsNumeric isTime :=
  isNumeric_hasUnit _

theorem isNumeric_isResolution : IsNumeric isResolution :=
  isNumeric_hasUnit _

theorem isNumeric_isMultiplier : IsNumeric isMultiplier :=
  isNumeric_hasUnit _

theorem isNumeric_isFlex : IsNumeric isFlex :=
  isNumeric_wellFormed? _

theorem isNumeric_isFraction : IsNumeric isFraction :=
  isNumeric_parse? _

end Quantity

theorem Calc.isNumeric_isTerm : IsNumeric Calc.isTerm :=
  ((((Quantity.isNumeric_isAngle.or Quantity.isNumeric_isLength).or
    Quantity.isNumeric_isTime).or Quantity.isNumeric_isInteger).or
    Quantity.isNumeric_isNumber).or Quantity.isNumeric_isPercentage

/-! Words. -/

/-- The same word, or the same up to letter case if it is no number. -/
def SameWord (text later : String) : Prop :=
  text = later ∨
    Dimension.read? text = none ∧ lowerCase text = lowerCase later

/-- The test does not tell the same word from itself. -/
def RespectsWords (test : String → Bool) : Prop :=
  ∀ ⦃text later : String⦄, SameWord text later → test later = test text

theorem IsCaseless.respectsWords {test : String → Bool}
    (caseless : IsCaseless test) : RespectsWords test := by
  rintro text later (rfl | ⟨-, same⟩)
  · rfl
  · exact caseless.eq same

theorem IsNumeric.respectsWords {test : String → Bool}
    (numeric : IsNumeric test) : RespectsWords test := by
  rintro text later (rfl | ⟨notNumber, same⟩)
  · rfl
  · have none : (Dimension.read? text).isSome = false := by
      rw [notNumber]
      rfl
    have laterNone : (Dimension.read? later).isSome = false := by
      rw [← none]
      exact Dimension.isCaseless_isSome_read?.eq same
    have fails : test text = false :=
      Bool.eq_false_iff.mpr (mt (numeric text) (Bool.eq_false_iff.mp none))
    have laterFails : test later = false :=
      Bool.eq_false_iff.mpr
        (mt (numeric later) (Bool.eq_false_iff.mp laterNone))
    rw [fails, laterFails]

theorem RespectsWords.or {first second : String → Bool}
    (respects : RespectsWords first) (respects' : RespectsWords second) :
    RespectsWords fun text => first text || second text := by
  intro text later same
  simp only [respects same, respects' same]

theorem Calc.respectsWords_isWord : RespectsWords Calc.isWord :=
  (Calc.isNumeric_isTerm.respectsWords.or
    Calc.isCaseless_isOperator.respectsWords).or
    Calc.isCaseless_isCompound.respectsWords

end StyleValue
