import StyleValue.Proofs.Text.LookBack

/-! The search for an unprotected mark, round by round. A round finds the next
mark and looks back at the backslashes before it; if they protect the mark, the
next round starts after it. Looking back may go past the place where the search
started. A scan that only goes forward, and takes two symbols at a backslash,
finds the same mark if no backslash stands right before the start. -/

namespace StyleValue

/-- What a round of the search comes to. -/
inductive Round where
  | ended (found : Option Nat)
  | again (start : Nat)
deriving DecidableEq, Repr

variable {α : Type} [Symbol α]

def searchRound (text : List α) (mark : Char) (start : Nat) : Round :=
  if start < text.length then
    match (text.drop start).findIdx? (Symbol.is mark) with
    | none => .ended none
    | some offset =>
        if isProtectedAt text (start + offset) then .again (start + offset + 1)
        else .ended (some (start + offset))
  else .ended none

/-- The search is over, with what it found, after some number of rounds. -/
inductive Searches (text : List α) (mark : Char) : Nat → Option Nat → Prop
  | ended {start : Nat} {found : Option Nat}
      (hasEnded : searchRound text mark start = .ended found) :
      Searches text mark start found
  | again {start next : Nat} {found : Option Nat}
      (goesOn : searchRound text mark start = .again next)
      (later : Searches text mark next found) : Searches text mark start found

/-- The first mark, from `place` on, that is met when the symbol after every
backslash is passed over. -/
def skipTo? (text : List α) (mark : Char) (place : Nat) : Option Nat :=
  if inside : place < text.length then
    if Symbol.is '\\' text[place] then skipTo? text mark (place + 2)
    else if Symbol.is mark text[place] then some place
    else skipTo? text mark (place + 1)
  else none
termination_by text.length - place

/-- The symbol before a place, if there is one, is not a backslash. -/
def AfterNoBackslash (text : List α) (place : Nat) : Prop :=
  ∀ before symbol, before + 1 = place → text[before]? = some symbol →
    Symbol.is '\\' symbol = false

variable {text : List α} {mark : Char} {start next : Nat} {found : Option Nat}

/-! From one place to the next. -/

theorem firstUnprotected?_of_le (atEnd : text.length ≤ start) :
    firstUnprotected? text start mark = none := by
  rw [firstUnprotected?, Nat.sub_eq_zero_of_le atEnd]
  rfl

theorem firstUnprotected?_of_lt (inside : start < text.length) :
    firstUnprotected? text start mark =
      if Symbol.is mark text[start] && !isProtectedAt text start then some start
      else firstUnprotected? text (start + 1) mark := by
  rw [firstUnprotected?, find?_places_cons (List.drop_eq_getElem_cons inside),
    List.getElem?_eq_getElem inside, Option.any_some]
  rfl

theorem searchRound_of_le (atEnd : text.length ≤ start) :
    searchRound text mark start = .ended none :=
  if_neg (Nat.not_lt.mpr atEnd)

theorem searchRound_of_mark (inside : start < text.length)
    (isMark : Symbol.is mark text[start] = true) :
    searchRound text mark start =
      if isProtectedAt text start then .again (start + 1)
      else .ended (some start) := by
  rw [searchRound, if_pos inside, List.drop_eq_getElem_cons inside,
    List.findIdx?_cons, if_pos isMark]
  rfl

theorem searchRound_of_notMark (inside : start < text.length)
    (notMark : Symbol.is mark text[start] = false) :
    searchRound text mark start = searchRound text mark (start + 1) := by
  rw [searchRound, if_pos inside, List.drop_eq_getElem_cons inside,
    List.findIdx?_cons, if_neg (Bool.eq_false_iff.mp notMark), searchRound]
  split
  next isNone =>
    rw [Option.map_eq_none_iff.mp isNone, ite_self]
  next offset isSome =>
    obtain ⟨further, isFurther, rfl⟩ := Option.map_eq_some_iff.mp isSome
    have goesOn : start + 1 < text.length := by
      have isIndex := (List.findIdx?_eq_some_iff_getElem.mp isFurther).1
      rw [List.length_drop] at isIndex
      omega
    rw [if_pos goesOn, isFurther, Nat.add_comm further, ← Nat.add_assoc]

/-! One round. -/

/-- A round that is over has found the first unprotected mark. Any other leaves
the same to be found, and less to search. -/
def Round.Keeps (text : List α) (mark : Char) (start : Nat) : Round → Prop
  | .ended found => found = firstUnprotected? text start mark
  | .again next =>
      start < next ∧ next ≤ text.length ∧
        firstUnprotected? text next mark = firstUnprotected? text start mark

theorem Round.Keeps.of_succ {round : Round}
    (same : firstUnprotected? text (start + 1) mark =
      firstUnprotected? text start mark)
    (keeps : round.Keeps text mark (start + 1)) :
    round.Keeps text mark start := by
  cases round with
  | ended found => exact Eq.trans keeps same
  | again next =>
      obtain ⟨ordered, bounded, sameLater⟩ := keeps
      exact ⟨Nat.lt_of_succ_lt ordered, bounded, sameLater.trans same⟩

theorem searchRound_keeps (text : List α) (mark : Char) (start : Nat) :
    (searchRound text mark start).Keeps text mark start := by
  -- A symbol that is no mark is passed over, and the round goes on as if it had
  -- started after it.
  induction remaining : text.length - start generalizing start with
  | zero =>
      have atEnd := Nat.le_of_sub_eq_zero remaining
      rw [searchRound_of_le atEnd]
      exact (firstUnprotected?_of_le atEnd).symm
  | succ remaining' ih =>
      have inside : start < text.length := by omega
      have goesOn : firstUnprotected? text start mark = _ :=
        firstUnprotected?_of_lt inside
      cases isMark : Symbol.is mark text[start] with
      | false =>
          rw [isMark, Bool.false_and, if_neg Bool.false_ne_true] at goesOn
          rw [searchRound_of_notMark inside isMark]
          exact (ih (start + 1) (by omega)).of_succ goesOn.symm
      | true =>
          rw [isMark, Bool.true_and] at goesOn
          rw [searchRound_of_mark inside isMark]
          cases isProtected : isProtectedAt text start with
          | true =>
              rw [isProtected] at goesOn
              exact ⟨Nat.lt_succ_self start, inside, goesOn.symm⟩
          | false =>
              rw [isProtected] at goesOn
              exact goesOn.symm

/-! All rounds. -/

theorem Searches.eq (searches : Searches text mark start found) :
    found = firstUnprotected? text start mark := by
  induction searches with
  | @ended start found hasEnded =>
      have keeps := searchRound_keeps text mark start
      rwa [hasEnded] at keeps
  | @again start next found goesOn later ih =>
      have keeps := searchRound_keeps text mark start
      rw [goesOn] at keeps
      exact ih.trans keeps.2.2

theorem exists_searches (text : List α) (mark : Char) (start : Nat) :
    ∃ found, Searches text mark start found := by
  induction remaining : text.length - start using Nat.strongRecOn
    generalizing start with
  | ind remaining' ih =>
      have keeps := searchRound_keeps text mark start
      cases round : searchRound text mark start with
      | ended found => exact ⟨found, .ended round⟩
      | again next =>
          rw [round] at keeps
          obtain ⟨ordered, bounded, -⟩ := keeps
          obtain ⟨found, later⟩ := ih _ (by omega) next rfl
          exact ⟨found, .again round later⟩

theorem searches_iff :
    Searches text mark start found ↔
      found = firstUnprotected? text start mark := by
  constructor
  · exact Searches.eq
  · rintro rfl
    obtain ⟨found, searches⟩ := exists_searches text mark start
    rwa [← searches.eq]

/-! Going forward only. -/

theorem is_eq_false_of_is {other : Char} {symbol : α}
    (isOther : Symbol.is other symbol = true) (different : mark ≠ other) :
    Symbol.is mark symbol = false := by
  rw [Symbol.is, beq_eq_false_iff_ne, beq_iff_eq.mp isOther]
  intro sameCode
  exact different (Char.toNat_inj.mp sameCode).symm

theorem isProtectedAt_of_afterNoBackslash
    (after : AfterNoBackslash text start) (bounded : start ≤ text.length) :
    isProtectedAt text start = false := by
  cases start with
  | zero => rfl
  | succ before =>
      have found : text[before]? = some text[before] :=
        List.getElem?_eq_getElem bounded
      exact isProtectedAt_eq_false found (after before _ rfl found)

theorem skipTo?_eq (notBackslash : mark ≠ '\\')
    (free : start < text.length → isProtectedAt text start = false) :
    skipTo? text mark start = firstUnprotected? text start mark := by
  fun_induction skipTo? text mark start with
  | case1 place inside isBackslash ih =>
      have notMark := is_eq_false_of_is isBackslash notBackslash
      -- The next symbol is protected, so it protects nothing itself, and a mark
      -- in its place is none.
      have isProtected : isProtectedAt text (place + 1) = true := by
        rw [isProtectedAt_succ (List.getElem?_eq_getElem inside), free inside,
          isBackslash]
        rfl
      rw [firstUnprotected?_of_lt inside, notMark, Bool.false_and,
        if_neg Bool.false_ne_true]
      by_cases goesOn : place + 1 < text.length
      · rw [firstUnprotected?_of_lt goesOn, isProtected, Bool.not_true,
          Bool.and_false, if_neg Bool.false_ne_true]
        apply ih
        intro
        rw [isProtectedAt_succ (List.getElem?_eq_getElem goesOn), isProtected]
        rfl
      · have atEnd := Nat.le_of_not_lt goesOn
        rw [ih (by omega), firstUnprotected?_of_le atEnd,
          firstUnprotected?_of_le (Nat.le_succ_of_le atEnd)]
  | case2 place inside goesOn isMark =>
      rw [firstUnprotected?_of_lt inside, isMark, free inside]
      rfl
  | case3 place inside goesOn notMark ih =>
      have notBackslash : Symbol.is '\\' text[place] = false :=
        Bool.eq_false_iff.mpr goesOn
      rw [firstUnprotected?_of_lt inside, Bool.eq_false_iff.mpr notMark,
        Bool.false_and, if_neg Bool.false_ne_true]
      apply ih
      intro
      exact isProtectedAt_eq_false (List.getElem?_eq_getElem inside)
        notBackslash
  | case4 place outside =>
      rw [firstUnprotected?_of_le (Nat.le_of_not_lt outside)]

end StyleValue
