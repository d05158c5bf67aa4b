import StyleValue.Name.Identifier
import StyleValue.Text.Symbol

/-! The grammar of identifiers, and the texts that pass for identifiers: these
and no others, as long as no escape stands in the text. Beside an escape nothing
is looked at but how the text starts. -/

namespace StyleValue

namespace Identifier

/-- A backslash, a `u` in either case or none, one to six hexadecimal digits,
and a blank or none. -/
inductive IsEscape : List Char → Prop
  | mk {mark digits blank : List Char}
      (isMark : mark = [] ∨ mark = ['u'] ∨ mark = ['U'])
      (atLeastOne : 1 ≤ digits.length) (atMostSix : digits.length ≤ 6)
      (areHex : ∀ c ∈ digits, isHexDigit c = true)
      (isBlank : blank = [] ∨ ∃ c, Symbol.isBlank c = true ∧ blank = [c]) :
      IsEscape ('\\' :: (mark ++ digits ++ blank))

/-- Letters, digits, hyphens, low lines and escapes, in any order. -/
inductive IsSpelled : List Char → Prop
  | nil : IsSpelled []
  | plain {c : Char} {rest : List Char}
      (isPlain : c.isAlpha = true ∨ c.isDigit = true ∨ c = '-' ∨ c = '_')
      (further : IsSpelled rest) : IsSpelled (c :: rest)
  | escape {escape rest : List Char} (isEscape : IsEscape escape)
      (further : IsSpelled rest) : IsSpelled (escape ++ rest)

/-- The text starts with no digit, also not after a hyphen, and with three
hyphens if with two. -/
structure StartsAllowed (text : List Char) : Prop where
  notDigit : ∀ c rest, text = c :: rest → c.isDigit = false
  notDigitAfterHyphen : ∀ c rest, text = '-' :: c :: rest → c.isDigit = false
  thirdHyphen : ∀ rest, text = '-' :: '-' :: rest → rest.head? = some '-'

structure IsIdentifier (text : List Char) : Prop where
  nonempty : text ≠ []
  starts : StartsAllowed text
  spelled : IsSpelled text

def HoldsEscape (text : List Char) : Prop :=
  ∃ before escape after, IsEscape escape ∧ text = before ++ escape ++ after

variable {text : List Char}

/-! How a text starts. -/

theorem startsWell_cons {c : Char} (notHyphen : c ≠ '-') (rest : List Char) :
    startsWell (c :: rest) = !c.isDigit := by
  simp [startsWell, notHyphen]

theorem startsWell_hyphen_cons {c : Char} (notHyphen : c ≠ '-')
    (rest : List Char) : startsWell ('-' :: c :: rest) = !c.isDigit := by
  simp [startsWell, notHyphen]

theorem startsWell_hyphen_hyphen_iff {rest : List Char} :
    startsWell ('-' :: '-' :: rest) = true ↔ rest.head? = some '-' := by
  cases rest with
  | nil => simp [startsWell]
  | cons c rest =>
      by_cases isHyphen : c = '-'
      · simp [startsWell, isHyphen]
      · simp [startsWell, isHyphen]

theorem startsWell_iff : startsWell text = true ↔ StartsAllowed text := by
  constructor
  · intro well
    constructor
    · intro c rest isText
      by_cases isHyphen : c = '-'
      · rw [isHyphen]
        rfl
      · rwa [isText, startsWell_cons isHyphen, Bool.not_eq_true'] at well
    · intro c rest isText
      by_cases isHyphen : c = '-'
      · rw [isHyphen]
        rfl
      · rwa [isText, startsWell_hyphen_cons isHyphen, Bool.not_eq_true'] at well
    · intro rest isText
      rwa [isText, startsWell_hyphen_hyphen_iff] at well
  · intro allowed
    obtain _ | ⟨first, rest⟩ := text
    · rfl
    by_cases isHyphen : first = '-'
    · subst isHyphen
      obtain _ | ⟨second, rest⟩ := rest
      · rfl
      by_cases isHyphen : second = '-'
      · subst isHyphen
        exact startsWell_hyphen_hyphen_iff.mpr (allowed.thirdHyphen rest rfl)
      · rw [startsWell_hyphen_cons isHyphen,
          allowed.notDigitAfterHyphen second rest rfl]
        rfl
    · rw [startsWell_cons isHyphen, allowed.notDigit first rest rfl]
      rfl

/-! What stands in a text. -/

theorem IsEscape.ne_nil {escape : List Char} (isEscape : IsEscape escape) :
    escape ≠ [] := by
  cases isEscape with
  | mk => exact List.cons_ne_nil _ _

theorem IsEscape.startsEscape {escape : List Char} (isEscape : IsEscape escape)
    (after : List Char) : startsEscape (escape ++ after) = true := by
  cases isEscape with
  | @mk mark digits blank isMark atLeastOne atMostSix areHex isBlank =>
      obtain ⟨digit, digits, rfl⟩ :=
        List.exists_cons_of_ne_nil (List.ne_nil_of_length_pos atLeastOne)
      have isHex := areHex digit List.mem_cons_self
      rcases isMark with rfl | rfl | rfl
      · simp [Identifier.startsEscape, isHex]
      · simp [Identifier.startsEscape, isHex]
      · simp [Identifier.startsEscape, isHex]

/-- An escape with one digit is enough to start with. -/
theorem startsEscape_iff :
    startsEscape text = true ↔
      ∃ escape after, IsEscape escape ∧ text = escape ++ after := by
  have short {mark : List Char} {digit : Char}
      (isMark : mark = [] ∨ mark = ['u'] ∨ mark = ['U'])
      (isHex : isHexDigit digit = true) :
      IsEscape ('\\' :: (mark ++ [digit] ++ [])) :=
    .mk isMark Nat.le.refl (by simp) (by simpa using isHex) (.inl rfl)
  constructor
  · intro starts
    unfold startsEscape at starts
    split at starts
    next c rest =>
      rw [Bool.or_eq_true, Bool.and_eq_true, Bool.or_eq_true, beq_iff_eq,
        beq_iff_eq] at starts
      rcases starts with isHex | ⟨isMark, isHex⟩
      · exact ⟨_, rest, short (.inl rfl) isHex, rfl⟩
      · obtain ⟨digit, isHead, isHex⟩ := (Option.any_eq_true _ _).mp isHex
        obtain ⟨rest, rfl⟩ := List.head?_eq_some_iff.mp isHead
        rcases isMark with rfl | rfl
        · exact ⟨_, rest, short (.inr (.inl rfl)) isHex, rfl⟩
        · exact ⟨_, rest, short (.inr (.inr rfl)) isHex, rfl⟩
    next => contradiction
  · intro held
    obtain ⟨escape, after, isEscape, rfl⟩ := held
    exact isEscape.startsEscape after

theorem not_holdsEscape_nil : ¬ HoldsEscape [] := by
  intro holds
  obtain ⟨before, escape, after, isEscape, isNil⟩ := holds
  have parts := List.append_eq_nil_iff.mp isNil.symm
  exact isEscape.ne_nil (List.append_eq_nil_iff.mp parts.1).2

theorem holdsEscape_cons_iff {c : Char} {rest : List Char} :
    HoldsEscape (c :: rest) ↔
      (∃ escape after, IsEscape escape ∧ c :: rest = escape ++ after) ∨
        HoldsEscape rest := by
  constructor
  · intro holds
    obtain ⟨_ | ⟨first, before⟩, escape, after, isEscape, same⟩ := holds
    · exact .inl ⟨escape, after, isEscape, same⟩
    · exact .inr ⟨before, escape, after, isEscape, (List.cons.inj same).2⟩
  · intro holds
    rcases holds with ⟨escape, after, isEscape, same⟩ |
      ⟨before, escape, after, isEscape, rfl⟩
    · exact ⟨[], escape, after, isEscape, same⟩
    · exact ⟨c :: before, escape, after, isEscape, rfl⟩

theorem hasEscape_iff : hasEscape text = true ↔ HoldsEscape text := by
  induction text with
  | nil => exact iff_of_false Bool.false_ne_true not_holdsEscape_nil
  | cons c rest ih =>
      rw [hasEscape, Bool.or_eq_true, startsEscape_iff, ih,
        holdsEscape_cons_iff]

theorem isPlain_iff {c : Char} :
    isPlain c = true ↔
      c.isAlpha = true ∨ c.isDigit = true ∨ c = '-' ∨ c = '_' := by
  simp [isPlain, Char.isAlphanum, or_assoc]

theorem isSpelled_of_all (arePlain : text.all isPlain = true) :
    IsSpelled text := by
  induction text with
  | nil => exact .nil
  | cons c rest ih =>
      rw [List.all_cons, Bool.and_eq_true] at arePlain
      exact .plain (isPlain_iff.mp arePlain.1) (ih arePlain.2)

theorem IsSpelled.all_or_holdsEscape (spelled : IsSpelled text) :
    text.all isPlain = true ∨ HoldsEscape text := by
  induction spelled with
  | nil => exact .inl rfl
  | plain plain _ ih =>
      rcases ih with arePlain | holds
      · rw [List.all_cons, isPlain_iff.mpr plain]
        exact .inl arePlain
      · exact .inr (holdsEscape_cons_iff.mpr (.inr holds))
  | @escape escape rest isEscape =>
      exact .inr ⟨[], escape, rest, isEscape, rfl⟩

theorem isValid_iff_startsAllowed {text : String} :
    isValid text = true ↔
      StartsAllowed text.toList ∧
        (text.toList.all isPlain = true ∨ HoldsEscape text.toList) := by
  rw [isValid, Bool.and_eq_true, Bool.or_eq_true, startsWell_iff, hasEscape_iff]

/-- What passes for an identifier is one, but for the empty text and for texts
that start as they should, hold an escape and are not spelled as they should. -/
theorem isValid_iff_isIdentifier (text : String) :
    isValid text = true ↔
      IsIdentifier text.toList ∨ text = "" ∨
        (StartsAllowed text.toList ∧ HoldsEscape text.toList ∧
          ¬ IsSpelled text.toList) := by
  rw [isValid_iff_startsAllowed]
  constructor
  · intro passed
    obtain ⟨starts, arePlain | holds⟩ := passed
    · by_cases isEmpty : text = ""
      · exact .inr (.inl isEmpty)
      · have nonempty : text.toList ≠ [] := by simpa using isEmpty
        exact .inl ⟨nonempty, starts, isSpelled_of_all arePlain⟩
    · by_cases spelled : IsSpelled text.toList
      · refine .inl ⟨?_, starts, spelled⟩
        intro isNil
        rw [isNil] at holds
        exact not_holdsEscape_nil holds
      · exact .inr (.inr ⟨starts, holds, spelled⟩)
  · intro described
    rcases described with ⟨-, starts, spelled⟩ | rfl | ⟨starts, holds, -⟩
    · exact ⟨starts, spelled.all_or_holdsEscape⟩
    · exact ⟨startsWell_iff.mp rfl, .inl rfl⟩
    · exact ⟨starts, .inr holds⟩

theorem IsSpelled.of_cons {c : Char} {rest : List Char}
    (notBackslash : c ≠ '\\') (spelled : IsSpelled (c :: rest)) :
    isPlain c = true ∧ IsSpelled rest := by
  generalize isText : c :: rest = text at spelled
  cases spelled with
  | nil => contradiction
  | plain plain further =>
      obtain ⟨rfl, rfl⟩ := List.cons.inj isText
      exact ⟨isPlain_iff.mpr plain, further⟩
  | escape isEscape =>
      cases isEscape with
      | mk => exact absurd (List.cons.inj isText).1 notBackslash

/-- One escape lets any character pass, and the empty text passes too. -/
theorem isValid_unread_characters :
    isValid "a.b\\31" = true ∧ ¬ IsIdentifier "a.b\\31".toList ∧
      isValid "" = true ∧ ¬ IsIdentifier "".toList := by
  refine ⟨by decide +kernel, ?_, by decide +kernel, ?_⟩
  · intro isIdentifier
    have afterLetter := isIdentifier.spelled.of_cons (by decide)
    have afterPoint := afterLetter.2.of_cons (by decide)
    exact absurd afterPoint.1 (by decide)
  · intro isIdentifier
    exact isIdentifier.nonempty rfl

end Identifier

end StyleValue
