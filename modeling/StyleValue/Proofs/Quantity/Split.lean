import Mathlib.Data.Set.Subsingleton
import StyleValue.Proofs.Quantity.Scanning
import StyleValue.Proofs.Text.Place

/-! The split of a text into a number and a unit. There is one split at most, the
one whose number is the longest that the text starts with, and a scan by places
in the bytes of the text finds it: all that it keeps is whether it has met a
point and a digit, and where the number ends so far. -/

namespace StyleValue

namespace Dimension

open Numeral

variable {text signs body taken rest start : List Char} {c : Char}

/-- A number and all that follows it, cut where the number can go no further. -/
structure IsSplit (text : String) (dimension : Dimension) : Prop where
  whole : text = dimension.number ++ dimension.unit
  isStart : IsStart dimension.number.toList
  stops : Stops dimension.number.toList dimension.unit.toList

/-- A number and all that follows it, cut behind the longest number. -/
structure IsLongest (text : String) (dimension : Dimension) : Prop where
  whole : text = dimension.number ++ dimension.unit
  isStart : IsStart dimension.number.toList
  longest : ∀ start, IsStart start → start <+: text.toList →
    start <+: dimension.number.toList

/-! Going on with a number. -/

/-- What a number may become: a sign or none, and digits with one point at most. -/
def IsPart (taken : List Char) : Prop :=
  ∃ signs ∈ sign.matches', ∃ body ∈ run.matches', taken = signs ++ body

/-- The character may come next: a digit, the first point, or a sign in front. -/
def MayFollow (taken : List Char) (c : Char) : Prop :=
  c.isDigit = true ∨ c = '.' ∧ '.' ∉ taken ∨ isSign c = true ∧ taken = []

/-- Nothing more can be taken of the rest. -/
def Halts (taken rest : List Char) : Prop :=
  ∀ c ∈ rest.head?, ¬ MayFollow taken c

theorem Halts.stops (halts : Halts taken rest) : Stops taken rest := by
  intro c isHead
  have stopped := halts c isHead
  rw [MayFollow, not_or, not_or, Bool.not_eq_true] at stopped
  refine ⟨stopped.1, fun isPoint => ?_⟩
  by_contra noPoint
  exact stopped.2.1 ⟨isPoint, noPoint⟩

theorem mem_run_concat (isRun : body ∈ run.matches')
    (goesOn : c.isDigit = true ∨ c = '.' ∧ '.' ∉ body) :
    body ++ [c] ∈ run.matches' := by
  rcases mem_run_iff.mp isRun with areDigits | ⟨whole, fraction, isWhole,
    isFraction, rfl⟩
  · rcases goesOn with isDigit | ⟨rfl, -⟩
    · refine mem_run_iff.mpr (.inl ?_)
      exact List.forall_mem_append.mpr
        ⟨areDigits, List.forall_mem_singleton.mpr isDigit⟩
    · exact mem_run_iff.mpr (.inr ⟨body, [], areDigits, nofun, rfl⟩)
  · rcases goesOn with isDigit | ⟨-, noPoint⟩
    · refine mem_run_iff.mpr (.inr ⟨whole, fraction ++ [c], isWhole, ?_, ?_⟩)
      · exact List.forall_mem_append.mpr
          ⟨isFraction, List.forall_mem_singleton.mpr isDigit⟩
      · rw [List.append_assoc, List.cons_append]
    · exact absurd (List.mem_append_right _ List.mem_cons_self) noPoint

theorem isPart_nil : IsPart [] :=
  ⟨[], mem_sign_iff.mpr (.inl rfl), [], mem_run_iff.mpr (.inl nofun), rfl⟩

theorem IsPart.concat (isPart : IsPart taken) (follows : MayFollow taken c) :
    IsPart (taken ++ [c]) := by
  obtain ⟨signs, isSigns, body, isRun, rfl⟩ := isPart
  have longer (goesOn : c.isDigit = true ∨ c = '.' ∧ '.' ∉ body) :
      IsPart (signs ++ body ++ [c]) :=
    ⟨signs, isSigns, body ++ [c], mem_run_concat isRun goesOn,
      List.append_assoc signs body [c]⟩
  rcases follows with isDigit | ⟨isPoint, noPoint⟩ | ⟨isSign, isNil⟩
  · exact longer (.inl isDigit)
  · exact longer (.inr ⟨isPoint, mt (List.mem_append_right signs) noPoint⟩)
  · rw [isNil]
    exact ⟨[c], mem_sign_iff.mpr (.inr ⟨c, isSign, rfl⟩), [],
      mem_run_iff.mpr (.inl nofun), rfl⟩

theorem isDigit_eq_false_of_sign (isSigns : signs ∈ sign.matches') :
    signs.any Char.isDigit = false := by
  rcases mem_sign_iff.mp isSigns with rfl | ⟨mark, isSign, rfl⟩
  · rfl
  · rw [List.any_cons, List.any_nil, Bool.or_false, Bool.eq_false_iff]
    intro isDigit
    rw [isSign_of_isDigit isDigit] at isSign
    contradiction

theorem isStart_iff :
    IsStart taken ↔ IsPart taken ∧ taken.any Char.isDigit = true := by
  constructor
  · intro isStart
    obtain ⟨signs, isSigns, body, isRun, hasDigit, rfl⟩ := isStart
    refine ⟨⟨signs, isSigns, body, isRun, rfl⟩, ?_⟩
    rw [List.any_append, hasDigit, Bool.or_true]
  · intro described
    obtain ⟨⟨signs, isSigns, body, isRun, rfl⟩, hasDigit⟩ := described
    rw [List.any_append, isDigit_eq_false_of_sign isSigns,
      Bool.false_or] at hasDigit
    exact ⟨signs, isSigns, body, isRun, hasDigit, rfl⟩

/-- A number is taken as far as it goes. -/
theorem IsStart.exists_stops (isStart : IsStart start) (rest : List Char) :
    ∃ more unit, rest = more ++ unit ∧ IsStart (start ++ more) ∧
      Stops (start ++ more) unit := by
  induction rest generalizing start with
  | nil => exact ⟨[], [], rfl, by rwa [List.append_nil], nofun⟩
  | cons c rest ih =>
      by_cases follows : MayFollow start c
      · obtain ⟨isPart, hasDigit⟩ := isStart_iff.mp isStart
        have further : IsStart (start ++ [c]) := by
          refine isStart_iff.mpr ⟨isPart.concat follows, ?_⟩
          rw [List.any_append, hasDigit, Bool.true_or]
        obtain ⟨more, unit, rfl, isLonger, stops⟩ := ih further
        rw [List.append_assoc] at isLonger stops
        exact ⟨c :: more, unit, rfl, isLonger, stops⟩
      · have halts : Halts start (c :: rest) := by
          intro first isFirst
          rwa [← Option.some.inj isFirst]
        exact ⟨[], c :: rest, rfl, by rwa [List.append_nil],
          by simpa using halts.stops⟩

theorem read?_iff_isSplit {text : String} {dimension : Dimension} :
    read? text = some dimension ↔ IsSplit text dimension := by
  rw [read?_eq_some_iff, ← String.toList_append, String.toList_inj]
  constructor
  · intro parts
    exact ⟨parts.1, parts.2.1, parts.2.2⟩
  · intro split
    exact ⟨split.whole, split.isStart, split.stops⟩

theorem IsSplit.unique {text : String} {first second : Dimension}
    (isFirst : IsSplit text first) (isSecond : IsSplit text second) :
    first = second :=
  Option.some.inj
    ((read?_iff_isSplit.mpr isFirst).symm.trans (read?_iff_isSplit.mpr isSecond))

theorem IsStart.exists_isSplit {text : String} (isStart : IsStart start)
    (starts : start <+: text.toList) :
    ∃ dimension, IsSplit text dimension ∧
      start <+: dimension.number.toList := by
  obtain ⟨rest, whole⟩ := starts
  obtain ⟨more, unit, rfl, isLonger, stops⟩ := isStart.exists_stops rest
  refine ⟨⟨String.ofList (start ++ more), String.ofList unit⟩, ⟨?_, ?_, ?_⟩, ?_⟩
  · rw [← String.ofList_append, List.append_assoc, whole, String.ofList_toList]
  · rwa [String.toList_ofList]
  · rwa [String.toList_ofList, String.toList_ofList]
  · rw [String.toList_ofList]
    exact List.prefix_append start more

theorem isSplit_iff_isLongest {text : String} {dimension : Dimension} :
    IsSplit text dimension ↔ IsLongest text dimension := by
  constructor
  · intro split
    refine ⟨split.whole, split.isStart, fun start isStart starts => ?_⟩
    obtain ⟨other, isOther, longer⟩ := isStart.exists_isSplit starts
    rwa [isOther.unique split] at longer
  · intro isLongest
    have starts : dimension.number.toList <+: text.toList := by
      rw [isLongest.whole, String.toList_append]
      exact List.prefix_append _ _
    obtain ⟨other, isOther, longer⟩ := isLongest.isStart.exists_isSplit starts
    have shorter : other.number.toList <+: dimension.number.toList := by
      apply isLongest.longest _ isOther.isStart
      rw [isOther.whole, String.toList_append]
      exact List.prefix_append _ _
    have same : dimension.number = other.number :=
      String.toList_inj.mp (longer.eq_of_length_le shorter.length_le)
    have rests := isLongest.whole.symm.trans isOther.whole
    rw [same, String.append_right_inj] at rests
    obtain ⟨number, unit⟩ := dimension
    cases same
    cases rests
    exact isOther

/-! The scan by places. -/

/-- What is kept of the characters that were taken: whether a point and a digit
were among them, and the place behind the last of them. -/
structure Scan where
  pointed : Bool
  hasDigit : Bool
  stop : Nat

namespace Scan

def initial : Scan := ⟨false, false, 0⟩

/-- Take the character at a place, unless the number cannot go on with it. -/
def take? (scan : Scan) (place : Nat) (c : Char) : Option Scan :=
  if c.isDigit then some { scan with hasDigit := true, stop := place + 1 }
  else if c == '.' && !scan.pointed then
    some { scan with pointed := true, stop := place + 1 }
  else if isSign c && place == 0 then some { scan with stop := place + 1 }
  else none

def run (scan : Scan) (place : Nat) : List Char → Scan
  | [] => scan
  | c :: rest =>
      match scan.take? place c with
      | none => scan
      | some next => next.run (place + (encode [c]).length) rest

/-- What is kept is true of the characters that were taken. -/
structure Follows (scan : Scan) (taken : List Char) : Prop where
  isPart : IsPart taken
  pointed : scan.pointed = taken.contains '.'
  hasDigit : scan.hasDigit = taken.any Char.isDigit
  stop : scan.stop = (encode taken).length

variable {scan next : Scan}

theorem follows_initial : Follows initial [] :=
  ⟨isPart_nil, rfl, rfl, rfl⟩

theorem toNat_lt_of_mayFollow (follows : MayFollow taken c) : c.toNat < 128 := by
  rcases follows with isDigit | ⟨rfl, -⟩ | ⟨isSign, -⟩
  · have := isDigit_iff.mp isDigit
    omega
  · decide
  · rcases Bool.or_eq_true_iff.mp isSign with isMark | isMark
    · rw [beq_iff_eq.mp isMark]
      decide
    · rw [beq_iff_eq.mp isMark]
      decide

/-- What is kept after a further character. -/
def plus (scan : Scan) (c : Char) : Scan :=
  ⟨scan.pointed || c == '.', scan.hasDigit || c.isDigit, scan.stop + 1⟩

theorem Follows.plus (follows : Follows scan taken)
    (mayFollow : MayFollow taken c) : Follows (scan.plus c) (taken ++ [c]) := by
  refine ⟨follows.isPart.concat mayFollow, ?_, ?_, ?_⟩
  · rw [Scan.plus, follows.pointed, List.contains_append, List.contains_cons,
      List.contains_nil, Bool.or_false, BEq.comm (a := '.')]
  · rw [Scan.plus, follows.hasDigit, List.any_append, List.any_cons,
      List.any_nil, Bool.or_false]
  · rw [Scan.plus, follows.stop, encode_append, List.length_append,
      length_encode_singleton (toNat_lt_of_mayFollow mayFollow)]

theorem Follows.take?_eq_some (follows : Follows scan taken)
    (mayFollow : MayFollow taken c) :
    scan.take? scan.stop c = some (scan.plus c) := by
  rw [Scan.take?, Scan.plus]
  rcases mayFollow with isDigit | ⟨rfl, noPoint⟩ | ⟨isSign, isNil⟩
  · have notPoint : (c == '.') = false := by
      rw [beq_eq_false_iff_ne]
      rintro rfl
      contradiction
    simp [isDigit, notPoint]
  · have notPointed : scan.pointed = false := by
      rw [follows.pointed]
      simpa using noPoint
    simp [notPointed]
  · have notDigit : c.isDigit = false := by
      rw [Bool.eq_false_iff]
      intro isDigit
      rw [isSign_of_isDigit isDigit] at isSign
      contradiction
    have notPoint : (c == '.') = false := by
      rw [beq_eq_false_iff_ne]
      rintro rfl
      contradiction
    have atStart : scan.stop = 0 := by
      rw [follows.stop, isNil]
      rfl
    simp [notDigit, notPoint, isSign, atStart]

theorem Follows.take?_eq_none (follows : Follows scan taken)
    (mayNotFollow : ¬ MayFollow taken c) :
    scan.take? scan.stop c = none := by
  rw [MayFollow, not_or, not_or, Bool.not_eq_true] at mayNotFollow
  obtain ⟨notDigit, noPoint, noSign⟩ := mayNotFollow
  have notTaken : (c == '.' && !scan.pointed) = false := by
    rw [follows.pointed]
    simpa using noPoint
  have notInFront : (isSign c && scan.stop == 0) = false := by
    rw [Bool.eq_false_iff]
    intro inFront
    obtain ⟨isSign, atStart⟩ := Bool.and_eq_true_iff.mp inFront
    rw [follows.stop, beq_iff_eq, List.length_eq_zero_iff] at atStart
    refine noSign ⟨isSign, ?_⟩
    by_contra nonempty
    exact encode_ne_nil nonempty atStart
  rw [Scan.take?, notDigit, notTaken, notInFront]
  rfl

/-- The whole run: characters are taken up to the first that may not follow. -/
theorem Follows.run (follows : Follows scan taken) (rest : List Char) :
    ∃ more unit, rest = more ++ unit ∧
      Follows (scan.run scan.stop rest) (taken ++ more) ∧
      Halts (taken ++ more) unit := by
  induction rest generalizing scan taken with
  | nil => exact ⟨[], [], rfl, by rwa [List.append_nil], nofun⟩
  | cons c rest ih =>
      by_cases mayFollow : MayFollow taken c
      · obtain ⟨more, unit, rfl, runs, halts⟩ := ih (follows.plus mayFollow)
        rw [List.append_assoc] at runs halts
        refine ⟨c :: more, unit, rfl, ?_, halts⟩
        rw [Scan.run, follows.take?_eq_some mayFollow,
          length_encode_singleton (toNat_lt_of_mayFollow mayFollow)]
        exact runs
      · refine ⟨[], c :: rest, rfl, ?_, ?_⟩
        · rwa [List.append_nil, Scan.run, follows.take?_eq_none mayFollow]
        · intro first isFirst
          rwa [List.append_nil, ← Option.some.inj isFirst]

end Scan

/-- The split by places in the bytes. A cut inside a character is no cut. -/
def split? (text : String) : Option (Option Dimension) :=
  let scan := Scan.initial.run 0 text.toList
  if scan.hasDigit then do
    let number ← cut? text 0 scan.stop
    let unit ← cut? text scan.stop text.utf8ByteSize
    return some ⟨String.ofList number, String.ofList unit⟩
  else some none

theorem splitSign_of_halts (isSigns : signs ∈ sign.matches')
    (isRun : body ∈ run.matches') (halts : Halts (signs ++ body) rest) :
    splitSign (signs ++ (body ++ rest)) = (signs, body ++ rest) := by
  rcases mem_sign_iff.mp isSigns with rfl | ⟨mark, isSign, rfl⟩
  · apply splitSign_append isSigns
    cases body with
    | nil =>
        intro c isHead
        rw [Bool.eq_false_iff]
        intro isSign
        exact halts c isHead (.inr (.inr ⟨isSign, rfl⟩))
    | cons first body =>
        intro c isHead
        exact isSign_head?_run isRun c isHead
  · rw [List.singleton_append, splitSign, if_pos isSign]

theorem read?_of_halts {text : String} (whole : text.toList = taken ++ rest)
    (isPart : IsPart taken) (halts : Halts taken rest) :
    read? text =
      if taken.any Char.isDigit then
        some ⟨String.ofList taken, String.ofList rest⟩
      else none := by
  obtain ⟨signs, isSigns, body, isRun, rfl⟩ := isPart
  rw [List.append_assoc] at whole
  simp only [read?, whole, splitSign_of_halts isSigns isRun halts,
    splitDigits_append isRun (halts.stops.of_signs isSigns), List.any_append,
    isDigit_eq_false_of_sign isSigns, Bool.false_or]

theorem split?_eq (text : String) : split? text = some (read? text) := by
  obtain ⟨taken, unit, whole, follows, halts⟩ :=
    Scan.follows_initial.run text.toList
  rw [List.nil_append] at follows halts
  have start : Bytes.IsPlace text 0 (taken ++ unit) := ⟨[], whole, rfl⟩
  have behind : Bytes.IsPlace text (encode taken).length (unit ++ []) := by
    rw [List.append_nil, ← Nat.zero_add (encode taken).length]
    exact start.advance
  have size : text.utf8ByteSize =
      (encode taken).length + (encode unit).length := by
    rw [utf8ByteSize_eq, whole, encode_append, List.length_append]
  have numberCut := start.cut?_eq
  have unitCut := behind.cut?_eq
  rw [← size] at unitCut
  rw [Nat.zero_add] at numberCut
  have scanned : Scan.initial.run 0 text.toList =
      Scan.initial.run Scan.initial.stop text.toList := rfl
  rw [read?_of_halts whole follows.isPart halts]
  simp only [split?, scanned, follows.hasDigit, follows.stop, numberCut, unitCut,
    Option.bind_eq_bind, Option.bind_some]
  split <;> rfl

/-- The split of a text is the only one there is. Its number is the longest that
the text starts with, and the text is split if it starts with a number at all. A
scan by places in the bytes, which cuts behind the last character that may go on
with the number, cuts between two characters and finds this split. -/
theorem read?_splits (text : String) :
    (∀ dimension, read? text = some dimension ↔ IsSplit text dimension) ∧
      (read? text = none ↔ ¬ ∃ dimension, IsSplit text dimension) ∧
      {dimension | IsSplit text dimension}.Subsingleton ∧
      (∀ dimension, IsSplit text dimension ↔ IsLongest text dimension) ∧
      ((∃ dimension, IsSplit text dimension) ↔
        ∃ start, IsStart start ∧ start <+: text.toList) ∧
      split? text = some (read? text) := by
  refine ⟨fun _ => read?_iff_isSplit, ?_, ?_, fun _ => isSplit_iff_isLongest, ?_,
    split?_eq text⟩
  · rw [Option.eq_none_iff_forall_ne_some, not_exists]
    simp only [ne_eq, read?_iff_isSplit]
  · intro first isFirst second isSecond
    exact IsSplit.unique isFirst isSecond
  · constructor
    · intro found
      obtain ⟨dimension, split⟩ := found
      refine ⟨_, split.isStart, ?_⟩
      rw [split.whole, String.toList_append]
      exact List.prefix_append _ _
    · intro found
      obtain ⟨start, isStart, starts⟩ := found
      obtain ⟨dimension, split, -⟩ := isStart.exists_isSplit starts
      exact ⟨dimension, split⟩

example : read? "+1.2.3é" = some ⟨"+1.2", ".3é"⟩ := by decide +kernel

end Dimension

end StyleValue
