import StyleValue.Text.Symbol

/-! A backslash protects the symbol after it, another backslash included. The
scan goes forward and skips what is protected; looking back, a symbol is
protected exactly when an odd run of backslashes stands before it. -/

namespace StyleValue

variable {α : Type}

/-- Text up to a closing mark, what follows the mark, and whether it was met. -/
structure Delimited (α : Type) where
  content : List α
  rest : List α
  closed : Bool

namespace Delimited

def cons (symbol : α) (scanned : Delimited α) : Delimited α :=
  { scanned with content := symbol :: scanned.content }

@[simp] theorem content_cons (symbol : α) (scanned : Delimited α) :
    (scanned.cons symbol).content = symbol :: scanned.content := rfl

@[simp] theorem rest_cons (symbol : α) (scanned : Delimited α) :
    (scanned.cons symbol).rest = scanned.rest := rfl

@[simp] theorem closed_cons (symbol : α) (scanned : Delimited α) :
    (scanned.cons symbol).closed = scanned.closed := rfl

end Delimited

variable [Symbol α]

/-- Scan to the first unprotected `mark`, which belongs to neither part. -/
def scanTo (mark : Char) : (escaped : Bool) → List α → Delimited α
  | _, [] => ⟨[], [], false⟩
  | escaped, symbol :: rest =>
      if !escaped && Symbol.is mark symbol then ⟨[], rest, true⟩
      else (scanTo mark (!escaped && Symbol.is '\\' symbol) rest).cons symbol

theorem length_scanTo_rest_le (mark : Char) (escaped : Bool) (text : List α) :
    (scanTo mark escaped text).rest.length ≤ text.length := by
  induction text generalizing escaped with
  | nil => simp [scanTo]
  | cons symbol rest ih =>
      simp only [scanTo]
      split
      · simp
      · have := ih (!escaped && Symbol.is '\\' symbol)
        simp only [Delimited.rest_cons, List.length_cons]
        omega

/-- The symbol at `index` stands after an odd run of backslashes. -/
def isProtectedAt (text : List α) (index : Nat) : Bool :=
  ((text.take index).reverse.takeWhile (Symbol.is '\\')).length % 2 == 1

/-- The first index, not before `start`, of an unprotected `mark`. -/
def firstUnprotected? (text : List α) (start : Nat) (mark : Char) :
    Option Nat :=
  (List.range' start (text.length - start)).find? fun index =>
    text[index]?.any (Symbol.is mark) && !isProtectedAt text index

end StyleValue
