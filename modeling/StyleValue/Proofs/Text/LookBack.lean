import StyleValue.Text.Escape

/-! Looking back from a symbol, the run of backslashes before it tells whether
it is protected; scanning forward, the same is known from one symbol to the
next. A search that looks back at every mark therefore stops where a forward
scan does, if the scan starts out with what looking back says. -/

namespace StyleValue

variable {α : Type}

/-! A search through the places of a text from `start` on. -/

theorem getElem?_of_drop {text rest : List α} {start : Nat} {symbol : α}
    (isRest : text.drop start = symbol :: rest) :
    text[start]? = some symbol := by
  rw [← List.head?_drop, isRest, List.head?_cons]

theorem drop_succ_of_drop {text rest : List α} {start : Nat} {symbol : α}
    (isRest : text.drop start = symbol :: rest) : text.drop (start + 1) = rest := by
  rw [← List.tail_drop, isRest, List.tail_cons]

theorem find?_places_nil {text : List α} {start : Nat}
    (atEnd : text.drop start = []) (test : Nat → Bool) :
    (List.range' start (text.length - start)).find? test = none := by
  rw [← List.length_drop, atEnd]
  rfl

theorem find?_places_cons {text rest : List α} {start : Nat} {symbol : α}
    (isRest : text.drop start = symbol :: rest) (test : Nat → Bool) :
    (List.range' start (text.length - start)).find? test =
      if test start then some start
      else (List.range' (start + 1) (text.length - (start + 1))).find? test := by
  rw [← List.length_drop, ← List.length_drop, isRest, drop_succ_of_drop isRest,
    List.length_cons, List.range'_succ, List.find?_cons]
  cases test start <;> rfl

/-- The place of the closing mark, of a scan that began at `start`. -/
def Delimited.closing? (start : Nat) (scanned : Delimited α) : Option Nat :=
  if scanned.closed then some (start + scanned.content.length) else none

theorem Delimited.closing?_cons (start : Nat) (symbol : α)
    (scanned : Delimited α) :
    (scanned.cons symbol).closing? start = scanned.closing? (start + 1) := by
  rw [closing?, closing?, closed_cons, content_cons, List.length_cons,
    Nat.add_assoc start 1, Nat.add_comm 1]

variable [Symbol α]

/-! Protected symbols. -/

theorem isProtectedAt_succ {text : List α} {index : Nat} {symbol : α}
    (found : text[index]? = some symbol) :
    isProtectedAt text (index + 1) =
      (!isProtectedAt text index && Symbol.is '\\' symbol) := by
  rw [isProtectedAt, isProtectedAt, List.take_add_one, found,
    Option.toList_some, List.reverse_append, List.reverse_singleton,
    List.singleton_append, List.takeWhile_cons]
  split
  next isBackslash =>
    rw [isBackslash, Bool.and_true, List.length_cons, Bool.eq_iff_iff,
      beq_iff_eq, Bool.not_eq_true', beq_eq_false_iff_ne]
    omega
  next notBackslash =>
    rw [Bool.eq_false_iff.mpr notBackslash, Bool.and_false]
    rfl

/-- A symbol after anything but a backslash is not protected. -/
theorem isProtectedAt_eq_false {text : List α} {index : Nat} {symbol : α}
    (found : text[index]? = some symbol)
    (notBackslash : Symbol.is '\\' symbol = false) :
    isProtectedAt text (index + 1) = false := by
  rw [isProtectedAt_succ found, notBackslash, Bool.and_false]

theorem firstUnprotected?_eq (text : List α) (start : Nat) (mark : Char) :
    firstUnprotected? text start mark =
      (scanTo mark (isProtectedAt text start) (text.drop start)).closing?
        start := by
  generalize isRest : text.drop start = rest
  induction rest generalizing start with
  | nil =>
      rw [firstUnprotected?, find?_places_nil isRest]
      rfl
  | cons symbol rest ih =>
      have found := getElem?_of_drop isRest
      have later := ih (start + 1) (drop_succ_of_drop isRest)
      rw [firstUnprotected?] at later
      rw [firstUnprotected?, find?_places_cons isRest, later, found,
        isProtectedAt_succ found, Option.any_some, Bool.and_comm, scanTo]
      split
      · rfl
      · rw [Delimited.closing?_cons]

end StyleValue
