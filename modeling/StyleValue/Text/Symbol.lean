/-! The characters of a text, and the units that it is read by. -/

namespace StyleValue

def isSign (c : Char) : Bool :=
  c == '+' || c == '-'

def isHexDigit (c : Char) : Bool :=
  c.isDigit || ('a' ≤ c && c ≤ 'f') || ('A' ≤ c && c ≤ 'F')

/-- Letter case matters only in ASCII; other characters stand for themselves. -/
def lowerCase (text : String) : String :=
  text.map Char.toLower

def sameName (first second : String) : Bool :=
  lowerCase first == lowerCase second

/-- A unit of text: a character, or one byte of its UTF-8 encoding. Every mark
that the lexical rules look for is ASCII, so it is one unit in both. -/
class Symbol (α : Type) where
  code : α → Nat

instance : Symbol Char := ⟨Char.toNat⟩

instance : Symbol UInt8 := ⟨UInt8.toNat⟩

namespace Symbol

variable {α : Type} [Symbol α]

def is (mark : Char) (symbol : α) : Bool :=
  code symbol == mark.toNat

@[simp] theorem is_eq_true_iff (mark c : Char) :
    is mark c = true ↔ c = mark := by
  simp only [is, code, beq_iff_eq]
  exact Char.toNat_inj

@[simp] theorem is_eq_false_iff (mark c : Char) :
    is mark c = false ↔ c ≠ mark := by
  rw [← Bool.not_eq_true, is_eq_true_iff]

/-- Blanks are the space and everything below it. -/
def isBlank (symbol : α) : Bool :=
  code symbol ≤ 0x20

def isQuote (symbol : α) : Bool :=
  is '\'' symbol || is '"' symbol

def lowerCode (code : Nat) : Nat :=
  if 'A'.toNat ≤ code ∧ code ≤ 'Z'.toNat then code + 32 else code

/-- The symbols spell `word`, which is in lower case, up to ASCII case. -/
def spells (word : String) (symbols : List α) : Bool :=
  symbols.map (fun symbol => lowerCode (code symbol)) ==
    word.toList.map Char.toNat

end Symbol

end StyleValue
