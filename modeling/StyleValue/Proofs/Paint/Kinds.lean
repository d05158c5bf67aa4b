import StyleValue.Proofs.Name.Identifier
import StyleValue.Proofs.Paint.Gradient
import StyleValue.Proofs.Quantity.Family
import StyleValue.Proofs.Sequence.Chain

/-! A leaf of a value is of one kind at most. The kinds are told apart by what can
be seen of a node from outside: of a word, whether it starts with a number, and
of a call, the name. -/

namespace StyleValue

/-- What there is to a node apart from the items inside it. -/
inductive Outline where
  | number
  | name
  | quoted
  | call (name : String)
  | separator
deriving DecidableEq, Repr

def Outline.calls (names : List String) : List Outline :=
  names.map fun name => .call (lowerCase name)

theorem Outline.calls_append (first second : List String) :
    calls (first ++ second) = calls first ++ calls second :=
  List.map_append

namespace Node

def outline : Node → Outline
  | .word text => if (Dimension.read? text).isSome then .number else .name
  | .quoted _ _ _ => .quoted
  | .call name _ _ _ _ => .call (lowerCase name)
  | .space _ | .divider _ _ _ => .separator

/-- A quantity of some kind. -/
def isNumeric (node : Node) : Bool :=
  Quantity.kinds.any fun kind => kind node

end Node

/-- The kinds of leaves, and how a leaf of the kind may look from outside. -/
def leafKinds : List ((Node → Bool) × List Outline) :=
  [(Node.isNumeric, .number :: Outline.calls ["calc"]),
    (Node.isColor,
      .name :: Outline.calls (Color.signatures.flatMap Signature.names)),
    (Node.isQuoted, [.quoted]),
    (Node.isUrl, Outline.calls ["url"]),
    (Node.isGradient,
      Outline.calls (["linear-gradient", "repeating-linear-gradient"] ++
        ["radial-gradient", "repeating-radial-gradient"])),
    (Node.isVariable, Outline.calls ["var"])]

theorem outlines_apart :
    leafKinds.Pairwise fun first second =>
      ∀ outline ∈ first.2, outline ∉ second.2 := by
  decide +kernel

/-! Numbers. -/

namespace Numeral

variable {text : List Char}

theorem backslash_notMem_start (isStart : Dimension.IsStart text) :
    '\\' ∉ text := by
  obtain ⟨signs, isSigns, body, isRun, -, rfl⟩ := isStart
  rw [List.mem_append, not_or]
  refine ⟨notMem_of_sign isSigns rfl, ?_⟩
  rcases mem_run_iff.mp isRun with areDigits | ⟨whole, fraction, isWhole,
    isFraction, rfl⟩
  · exact areDigits.notMem rfl
  · rw [List.mem_append, not_or, List.mem_cons, not_or]
    exact ⟨isWhole.notMem rfl, by decide, isFraction.notMem rfl⟩

theorem backslash_notMem_scale (isScale : text ∈ (1 + exponent).matches') :
    '\\' ∉ text := by
  rcases mem_optional_iff.mp isScale with rfl | isExponent
  · exact List.not_mem_nil
  · obtain ⟨mark, rest, isMark, isInteger, rfl⟩ := mem_exponent_iff.mp isExponent
    obtain ⟨signs, isSigns, body, isDigits, rfl⟩ := Language.mem_mul.mp isInteger
    have areDigits := (mem_digits_iff.mp isDigits).2
    rw [List.mem_cons, not_or, List.mem_append, not_or]
    refine ⟨?_, notMem_of_sign isSigns rfl, areDigits.notMem rfl⟩
    rintro rfl
    contradiction

end Numeral

namespace Quantity

variable {text : String}

theorem backslash_notMem_unit :
    ∀ measure ∈ measures, ∀ unit ∈ measure.2, '\\' ∉ unit.toList := by
  decide +kernel

/-- A quantity starts with a number, and no backslash stands after it. -/
theorem exists_read?_of_isNumeric
    (isNumeric : (Node.word text).isNumeric = true) :
    ∃ dimension, Dimension.read? text = some dimension ∧
      '\\' ∉ dimension.unit.toList := by
  -- A lone zero is a length and an angle without a unit of these kinds.
  by_cases isZero : text = "0"
  · subst isZero
    exact ⟨⟨"0", ""⟩, by decide +kernel, List.not_mem_nil⟩
  obtain ⟨kind, isKind, passed⟩ := List.any_eq_true.mp isNumeric
  have split : kinds = (fun node => node.isInteger || node.isNumber) ::
      measures.map Prod.fst := rfl
  rw [split, List.mem_cons, List.mem_map] at isKind
  rcases isKind with rfl | ⟨measure, isMeasure, rfl⟩
  · have isNumber : isNumber text = true :=
      (Bool.or_eq_true_iff.mp passed).elim isNumber_of_isInteger id
    obtain ⟨dimension, isRead, -, isScale⟩ :=
      Decimal.mem_number_iff_read?.mp (isNumber_iff.mp isNumber)
    exact ⟨dimension, isRead, Numeral.backslash_notMem_scale isScale⟩
  · obtain ⟨dimension, isRead, isUnit⟩ :=
      exists_unit_of_measures isZero measure isMeasure passed
    exact ⟨dimension, isRead, backslash_notMem_unit measure isMeasure _ isUnit⟩

end Quantity

/-! Identifiers. -/

namespace Identifier

open Numeral

theorem HoldsEscape.backslash_mem {text : List Char}
    (holds : HoldsEscape text) : '\\' ∈ text := by
  obtain ⟨before, escape, after, isEscape, rfl⟩ := holds
  cases isEscape with
  | mk => simp

/-- Of the characters that a number may start with, an identifier that does not
may hold only the hyphen. -/
theorem not_startsAllowed_of_isStart {number : List Char}
    (isStart : Dimension.IsStart number)
    (arePlain : ∀ c ∈ number, isPlain c = true) (rest : List Char) :
    ¬ StartsAllowed (number ++ rest) := by
  obtain ⟨signs, isSigns, body, isRun, hasDigit, rfl⟩ := isStart
  have areDigits : AreDigits body := by
    rcases mem_run_iff.mp isRun with areDigits | ⟨whole, fraction, -, -, rfl⟩
    · exact areDigits
    · exact absurd (arePlain '.' (by simp)) (by decide)
  obtain ⟨first, more, rfl⟩ :=
    List.exists_cons_of_ne_nil (Dimension.ne_nil_of_any hasDigit)
  have isDigit := areDigits first List.mem_cons_self
  intro starts
  rcases mem_sign_iff.mp isSigns with rfl | ⟨mark, isSign, rfl⟩
  · have notDigit := starts.notDigit first _ rfl
    rw [isDigit] at notDigit
    contradiction
  · have isPlainMark := arePlain mark (by simp)
    rw [StyleValue.isSign, Bool.or_eq_true, beq_iff_eq, beq_iff_eq] at isSign
    rcases isSign with rfl | rfl
    · contradiction
    · have notDigit := starts.notDigitAfterHyphen first _ rfl
      rw [isDigit] at notDigit
      contradiction

end Identifier

namespace Node

variable {node : Node} {names : List String} {text : String}

theorem isCustomIdentifier_of_isNumeric
    (isNumeric : (Node.word text).isNumeric = true) :
    (Node.word text).isCustomIdentifier = false := by
  obtain ⟨dimension, isRead, notInUnit⟩ :=
    Quantity.exists_read?_of_isNumeric isNumeric
  obtain ⟨whole, isStart, -⟩ := Dimension.read?_eq_some_iff.mp isRead
  rw [Bool.eq_false_iff]
  intro isIdentifier
  obtain ⟨starts, arePlain | holds⟩ :=
    Identifier.isValid_iff_startsAllowed.mp isIdentifier
  · rw [whole] at starts arePlain
    refine Identifier.not_startsAllowed_of_isStart isStart ?_ _ starts
    intro c member
    exact List.all_eq_true.mp arePlain c (List.mem_append_left _ member)
  · have inText := holds.backslash_mem
    rw [whole, List.mem_append] at inText
    exact inText.elim (Numeral.backslash_notMem_start isStart) notInUnit

/-! How each kind looks from outside. -/

theorem outline_of_isCallTo (isCall : node.isCallTo names = true) :
    node.outline ∈ Outline.calls names := by
  cases node with
  | call found before args after closed =>
      rw [isCallTo, argsOf?, Option.isSome_ite, List.any_eq_true] at isCall
      obtain ⟨name, member, named⟩ := isCall
      have sameCase : lowerCase found = lowerCase name := beq_iff_eq.mp named
      rw [outline, sameCase]
      exact List.mem_map_of_mem member
  | word | space | quoted | divider => contradiction

theorem outline_of_any {test : List Node → Bool}
    (passed : (node.argsOf? names).any test = true) :
    node.outline ∈ Outline.calls names :=
  outline_of_isCallTo (isCallTo_of_any passed)

theorem isNumeric_call (name before : String) (args : List Node)
    (after : String) (closed : Bool) :
    (call name before args after closed).isNumeric =
      (call name before args after closed).isCalc := by
  simp [isNumeric, Quantity.kinds, isInteger, isNumber, isPercentage, isLength,
    isAngle, isTime, isResolution, isFlex, isMultiplier, isWordThat]

theorem outline_of_isNumeric (numeric : node.isNumeric = true) :
    node.outline ∈ Outline.number :: Outline.calls ["calc"] := by
  cases node with
  | word text =>
      obtain ⟨dimension, isRead, -⟩ :=
        Quantity.exists_read?_of_isNumeric numeric
      rw [outline, isRead]
      exact List.mem_cons_self
  | call name before args after closed =>
      rw [isNumeric_call] at numeric
      exact List.mem_cons_of_mem _ (outline_of_any numeric)
  | space | quoted | divider => contradiction

theorem outline_of_isColor (isColor : node.isColor = true) :
    node.outline ∈ Outline.name ::
      Outline.calls (Color.signatures.flatMap Signature.names) := by
  cases node with
  | word text =>
      rw [outline, isNominal_isColor text isColor]
      exact List.mem_cons_self
  | call name before args after closed =>
      obtain ⟨signature, member, fits⟩ := List.any_eq_true.mp isColor
      have isCall := outline_of_any fits
      obtain ⟨known, isKnown, isOutline⟩ := List.mem_map.mp isCall
      rw [← isOutline]
      apply List.mem_cons_of_mem
      apply List.mem_map_of_mem
      exact List.mem_flatMap.mpr ⟨signature, member, isKnown⟩
  | space | quoted | divider => contradiction

theorem outline_of_isGradient (isGradient : node.isGradient = true) :
    node.outline ∈
      Outline.calls (["linear-gradient", "repeating-linear-gradient"] ++
        ["radial-gradient", "repeating-radial-gradient"]) := by
  rw [Outline.calls_append, List.mem_append]
  exact (Bool.or_eq_true_iff.mp isGradient).imp outline_of_any outline_of_any

theorem outline_of_isQuoted (isQuoted : node.isQuoted = true) :
    node.outline ∈ [Outline.quoted] := by
  cases node with
  | quoted => exact List.mem_cons_self
  | word | space | divider | call => contradiction

theorem outline_mem_of_leafKinds (node : Node) :
    ∀ kind ∈ leafKinds, kind.1 node = true → node.outline ∈ kind.2 := by
  simp only [leafKinds, List.forall_mem_cons]
  exact ⟨outline_of_isNumeric, outline_of_isColor, outline_of_isQuoted,
    outline_of_isCallTo, outline_of_isGradient, outline_of_isCallTo, nofun⟩

/-- No leaf is of two kinds. -/
theorem leafKinds_apart (node : Node) : TellApart leafKinds node := by
  refine outlines_apart.imp_of_mem ?_
  intro first second isFirst isSecond apart both
  exact apart _ (outline_mem_of_leafKinds node first isFirst both.1)
    (outline_mem_of_leafKinds node second isSecond both.2)

end Node

end StyleValue
