import StyleValue.Text.Escape

/-! A forward scan is determined by the text it leaves behind: what was scanned
holds no unprotected mark, and the mark that ended it is not protected. -/

namespace StyleValue

variable {α : Type} [Symbol α]

/-- Some symbol that no backslash protects passes the test. -/
def hasUnprotected (test : α → Bool) : (escaped : Bool) → List α → Bool
  | _, [] => false
  | escaped, symbol :: rest =>
      (!escaped && test symbol) ||
        hasUnprotected test (!escaped && Symbol.is '\\' symbol) rest

/-- The last symbol is a backslash that is not itself protected. -/
def endsInEscape : (escaped : Bool) → List α → Bool
  | escaped, [] => escaped
  | escaped, symbol :: rest =>
      endsInEscape (!escaped && Symbol.is '\\' symbol) rest

theorem hasUnprotected_cons_eq_false_iff (test : α → Bool) (escaped : Bool)
    (symbol : α) (rest : List α) :
    hasUnprotected test escaped (symbol :: rest) = false ↔
      (escaped = false → test symbol = false) ∧
        hasUnprotected test (!escaped && Symbol.is '\\' symbol) rest = false := by
  cases escaped <;> simp [hasUnprotected]

theorem hasUnprotected_append (test : α → Bool) (escaped : Bool)
    (first second : List α) :
    hasUnprotected test escaped (first ++ second) =
      (hasUnprotected test escaped first ||
        hasUnprotected test (endsInEscape escaped first) second) := by
  induction first generalizing escaped with
  | nil => simp [hasUnprotected, endsInEscape]
  | cons symbol rest ih =>
      simp only [List.cons_append, hasUnprotected, endsInEscape, ih,
        Bool.or_assoc]

theorem endsInEscape_append (escaped : Bool) (first second : List α) :
    endsInEscape escaped (first ++ second) =
      endsInEscape (endsInEscape escaped first) second := by
  induction first generalizing escaped with
  | nil => rfl
  | cons symbol rest ih => simp only [List.cons_append, endsInEscape, ih]

theorem hasUnprotected_mono {test wider : α → Bool}
    (implies : ∀ symbol, test symbol = true → wider symbol = true)
    {escaped : Bool} {text : List α}
    (clear : hasUnprotected wider escaped text = false) :
    hasUnprotected test escaped text = false := by
  induction text generalizing escaped with
  | nil => rfl
  | cons symbol rest ih =>
      rw [hasUnprotected_cons_eq_false_iff] at clear ⊢
      refine ⟨fun free => ?_, ih clear.2⟩
      have notWider := clear.1 free
      cases found : test symbol with
      | false => rfl
      | true => rw [implies symbol found] at notWider; contradiction

/-- How a scan for `mark` ended: at an unprotected mark, or at the end of the
text. -/
structure IsDelimited (mark : Char) (escaped : Bool)
    (scanned : Delimited Char) : Prop where
  clear : hasUnprotected (Symbol.is mark) escaped scanned.content = false
  closes : scanned.closed = true → endsInEscape escaped scanned.content = false
  ends : scanned.closed = false → scanned.rest = []

theorem IsDelimited.withRest {mark : Char} {escaped closed : Bool}
    {content rest later : List Char}
    (delimited : IsDelimited mark escaped ⟨content, rest, closed⟩)
    (atEnd : rest = [] → later = []) :
    IsDelimited mark escaped ⟨content, later, closed⟩ :=
  ⟨delimited.clear, delimited.closes,
    fun unclosed => atEnd (delimited.ends unclosed)⟩

def Delimited.textWith (mark : List Char) (scanned : Delimited Char) :
    List Char :=
  scanned.content ++ (if scanned.closed then mark else []) ++ scanned.rest

@[simp] theorem Delimited.textWith_cons (mark : List Char) (symbol : Char)
    (scanned : Delimited Char) :
    (scanned.cons symbol).textWith mark = symbol :: scanned.textWith mark := rfl

theorem scanTo_textWith (mark : Char) (escaped : Bool) (text : List Char) :
    (scanTo mark escaped text).textWith [mark] = text := by
  induction text generalizing escaped with
  | nil => rfl
  | cons symbol rest ih =>
      simp only [scanTo]
      split
      next found =>
        have isMark : symbol = mark := by
          simpa using (Bool.and_eq_true_iff.mp found).2
        simp [Delimited.textWith, isMark]
      next => rw [Delimited.textWith_cons, ih]

theorem scanTo_isDelimited (mark : Char) (escaped : Bool) (text : List Char) :
    IsDelimited mark escaped (scanTo mark escaped text) := by
  induction text generalizing escaped with
  | nil =>
      refine ⟨rfl, fun closed => ?_, fun _ => rfl⟩
      contradiction
  | cons symbol rest ih =>
      simp only [scanTo]
      split
      next found =>
        have free : escaped = false := by
          simpa using (Bool.and_eq_true_iff.mp found).1
        refine ⟨rfl, fun _ => free, fun unclosed => ?_⟩
        contradiction
      next notFound =>
        obtain ⟨clear, closes, ends⟩ := ih (!escaped && Symbol.is '\\' symbol)
        refine ⟨?_, closes, ends⟩
        rw [Delimited.content_cons, hasUnprotected_cons_eq_false_iff]
        refine ⟨fun free => ?_, clear⟩
        simpa [free] using notFound

theorem scanTo_of_isDelimited {mark : Char} {escaped : Bool}
    {scanned : Delimited Char} (delimited : IsDelimited mark escaped scanned) :
    scanTo mark escaped (scanned.textWith [mark]) = scanned := by
  obtain ⟨content, rest, closed⟩ := scanned
  obtain ⟨clear, closes, ends⟩ := delimited
  induction content generalizing escaped with
  | nil =>
      cases closed with
      | false =>
          have atEnd : rest = [] := ends rfl
          subst rest
          rfl
      | true =>
          have free : escaped = false := closes rfl
          simp [Delimited.textWith, scanTo, free]
  | cons symbol content ih =>
      have parts := (hasUnprotected_cons_eq_false_iff _ _ _ _).mp clear
      have tail := ih parts.2 closes ends
      have notMark : (!escaped && Symbol.is mark symbol) = false := by
        cases escaped with
        | false => simpa using parts.1 rfl
        | true => rfl
      change scanTo mark escaped
        (symbol :: Delimited.textWith [mark] ⟨content, rest, closed⟩) = _
      rw [scanTo, notMark, tail]
      rfl

end StyleValue
