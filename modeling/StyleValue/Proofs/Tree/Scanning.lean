import StyleValue.Proofs.Text.Protection
import StyleValue.Proofs.Text.Span
import StyleValue.Tree.Lexeme

/-! What a scan over a word, a run of blanks or a comment takes off a text, and
which texts it would take. -/

namespace StyleValue

namespace Lexeme

def AllBlank (text : List Char) : Prop :=
  ∀ c ∈ text, Symbol.isBlank c = true

/-- A scan over a word stops before an unprotected mark or with the text. -/
structure IsWordScan (nested escaped : Bool) (word rest : List Char) : Prop where
  clear : hasUnprotected (endsWord nested) escaped word = false
  stops : ∀ c ∈ rest.head?,
    endsInEscape escaped word = false ∧ endsWord nested c = true

/-! Scanning a word. -/

theorem scanWord_append (nested escaped : Bool) (text : List Char) :
    (scanWord nested escaped text).1 ++ (scanWord nested escaped text).2 =
      text := by
  induction text generalizing escaped with
  | nil => rfl
  | cons symbol rest ih =>
      simp only [scanWord]
      split
      · rfl
      · simp only [List.cons_append, ih]

theorem scanWord_isWordScan (nested escaped : Bool) (text : List Char) :
    IsWordScan nested escaped (scanWord nested escaped text).1
      (scanWord nested escaped text).2 := by
  induction text generalizing escaped with
  | nil => exact ⟨rfl, nofun⟩
  | cons symbol rest ih =>
      simp only [scanWord]
      split
      next found =>
        have ends := Bool.and_eq_true_iff.mp found
        refine ⟨rfl, ?_⟩
        intro c isHead
        cases isHead
        exact ⟨by simpa [endsInEscape] using ends.1, ends.2⟩
      next notFound =>
        obtain ⟨clear, stops⟩ := ih (!escaped && Symbol.is '\\' symbol)
        refine ⟨?_, stops⟩
        rw [hasUnprotected_cons_eq_false_iff]
        refine ⟨fun free => ?_, clear⟩
        simpa [free] using notFound

theorem scanWord_of_isWordScan {nested escaped : Bool} {word rest : List Char}
    (scan : IsWordScan nested escaped word rest) :
    scanWord nested escaped (word ++ rest) = (word, rest) := by
  obtain ⟨clear, stops⟩ := scan
  induction word generalizing escaped with
  | nil =>
      cases rest with
      | nil => rfl
      | cons next rest =>
          obtain ⟨free, ends⟩ := stops next rfl
          have notEscaped : escaped = false := free
          simp [scanWord, notEscaped, ends]
  | cons symbol word ih =>
      have parts := (hasUnprotected_cons_eq_false_iff _ _ _ _).mp clear
      have tail := ih parts.2 stops
      have goesOn : (!escaped && endsWord nested symbol) = false := by
        cases escaped with
        | false => simpa using parts.1 rfl
        | true => rfl
      rw [List.cons_append, scanWord, goesOn, tail]
      rfl

theorem isWordScan_cons_iff {nested : Bool} {symbol : Char}
    {word rest : List Char} :
    IsWordScan nested false (symbol :: word) rest ↔
      endsWord nested symbol = false ∧
        IsWordScan nested (Symbol.is '\\' symbol) word rest := by
  constructor
  · intro scan
    have parts := (hasUnprotected_cons_eq_false_iff _ _ _ _).mp scan.clear
    exact ⟨parts.1 rfl, parts.2, scan.stops⟩
  · rintro ⟨goesOn, clear, stops⟩
    exact ⟨(hasUnprotected_cons_eq_false_iff _ _ _ _).mpr
      ⟨fun _ => goesOn, clear⟩, stops⟩

/-! Runs of blanks, at the start of a text and at its end. -/

theorem AllBlank.append {first second : List Char} (blank : AllBlank first)
    (blank' : AllBlank second) : AllBlank (first ++ second) := by
  intro c member
  exact (List.mem_append.mp member).elim (blank c) (blank' c)

theorem allBlank_takeWhile (text : List Char) :
    AllBlank (text.takeWhile Symbol.isBlank) :=
  List.all_eq_true.mp List.all_takeWhile

theorem isBlank_head?_dropWhile (text : List Char) :
    ∀ c ∈ (text.dropWhile Symbol.isBlank).head?, Symbol.isBlank c = false :=
  stops_dropWhile Symbol.isBlank text

theorem dropWhile_blank_append {gap rest : List Char} (blank : AllBlank gap)
    (stops : ∀ c ∈ rest.head?, Symbol.isBlank c = false) :
    (gap ++ rest).dropWhile Symbol.isBlank = rest :=
  dropWhile_append_of_stops blank stops

theorem takeWhile_blank_append {gap rest : List Char} (blank : AllBlank gap)
    (stops : ∀ c ∈ rest.head?, Symbol.isBlank c = false) :
    (gap ++ rest).takeWhile Symbol.isBlank = gap :=
  takeWhile_append_of_stops blank stops

theorem dropBlankEnd_append_blankEnd (text : List Char) :
    dropBlankEnd text ++ blankEnd text = text := by
  rw [dropBlankEnd, blankEnd, ← List.reverse_append,
    List.takeWhile_append_dropWhile, List.reverse_reverse]

theorem allBlank_blankEnd (text : List Char) : AllBlank (blankEnd text) := by
  intro c member
  exact allBlank_takeWhile text.reverse c (List.mem_reverse.mp member)

theorem isBlank_getLast?_dropBlankEnd (text : List Char) :
    ∀ c ∈ (dropBlankEnd text).getLast?, Symbol.isBlank c = false := by
  rw [dropBlankEnd, List.getLast?_reverse]
  exact isBlank_head?_dropWhile text.reverse

theorem dropBlankEnd_append {address after : List Char}
    (blank : AllBlank after)
    (stops : ∀ c ∈ address.getLast?, Symbol.isBlank c = false) :
    dropBlankEnd (address ++ after) = address := by
  have blankReversed : AllBlank after.reverse := fun c member =>
    blank c (List.mem_reverse.mp member)
  rw [← List.head?_reverse] at stops
  rw [dropBlankEnd, List.reverse_append,
    dropWhile_blank_append blankReversed stops, List.reverse_reverse]

theorem blankEnd_append {address after : List Char}
    (blank : AllBlank after)
    (stops : ∀ c ∈ address.getLast?, Symbol.isBlank c = false) :
    blankEnd (address ++ after) = after := by
  have blankReversed : AllBlank after.reverse := fun c member =>
    blank c (List.mem_reverse.mp member)
  rw [← List.head?_reverse] at stops
  rw [blankEnd, List.reverse_append,
    takeWhile_blank_append blankReversed stops, List.reverse_reverse]

/-! Scanning a comment. -/

theorem not_commentEnd_cons_iff {symbol : Char} {body : List Char} :
    ¬ ['*', '/'] <:+: symbol :: body ↔
      (symbol = '*' → ∀ c ∈ body.head?, c ≠ '/') ∧
        ¬ ['*', '/'] <:+: body := by
  rw [List.infix_cons_iff, not_or]
  refine and_congr_left fun _ => ?_
  cases body with
  | nil => simp
  | cons next body =>
      simp only [List.cons_prefix_cons, List.nil_prefix, and_true,
        List.head?_cons, Option.mem_def, Option.some.injEq, forall_eq',
        not_and, eq_comm]

theorem scanComment_textWith (text : List Char) :
    (scanComment text).textWith ['*', '/'] = text := by
  fun_induction scanComment text with
  | case1 => rfl
  | case2 symbol => rfl
  | case3 symbol next rest found =>
      have marks := Bool.and_eq_true_iff.mp found
      have star : symbol = '*' := by simpa using marks.1
      have slash : next = '/' := by simpa using marks.2
      simp [Delimited.textWith, star, slash]
  | case4 symbol next rest notFound ih =>
      rw [Delimited.textWith_cons, ih]

theorem scanComment_ends (text : List Char)
    (unclosed : (scanComment text).closed = false) :
    (scanComment text).rest = [] := by
  fun_induction scanComment text with
  | case1 => rfl
  | case2 symbol => rfl
  | case3 symbol next rest found => contradiction
  | case4 symbol next rest notFound ih => exact ih unclosed

theorem scanComment_cons {symbol : Char} {text : List Char}
    (goesOn : symbol = '*' → ∀ c ∈ text.head?, c ≠ '/') :
    scanComment (symbol :: text) = (scanComment text).cons symbol := by
  cases text with
  | nil => rfl
  | cons next rest =>
      rw [scanComment]
      split
      next found =>
        have marks := Bool.and_eq_true_iff.mp found
        have slash : next = '/' := by simpa using marks.2
        exact absurd slash (goesOn (by simpa using marks.1) next rfl)
      next => rfl

theorem not_commentEnd_scanComment_content (text : List Char) :
    ¬ ['*', '/'] <:+: (scanComment text).content := by
  fun_induction scanComment text with
  | case1 => simp
  | case2 symbol => simp [not_commentEnd_cons_iff]
  | case3 symbol next rest found => simp
  | case4 symbol next rest notFound ih =>
      rw [Delimited.content_cons, not_commentEnd_cons_iff]
      refine ⟨?_, ih⟩
      intro star c isHead slash
      have whole := scanComment_textWith (next :: rest)
      cases content : (scanComment (next :: rest)).content with
      | nil => simp [content] at isHead
      | cons first more =>
          rw [Delimited.textWith, content] at whole
          have firstEq : first = next := (List.cons.inj whole).1
          rw [content] at isHead
          have headEq : first = c := by simpa using isHead
          apply notFound
          simp [star, ← firstEq, headEq, slash]

theorem scanComment_of_ends {scanned : Delimited Char}
    (unended : ¬ ['*', '/'] <:+: scanned.content)
    (ends : scanned.closed = false → scanned.rest = []) :
    scanComment (scanned.textWith ['*', '/']) = scanned := by
  obtain ⟨body, rest, closed⟩ := scanned
  induction body with
  | nil =>
      cases closed with
      | true => rfl
      | false =>
          have atEnd : rest = [] := ends rfl
          subst rest
          rfl
  | cons symbol body ih =>
      have parts := not_commentEnd_cons_iff.mp unended
      have tail := ih parts.2 ends
      change scanComment
        (symbol :: Delimited.textWith ['*', '/'] ⟨body, rest, closed⟩) = _
      rw [scanComment_cons ?_, tail]
      · rfl
      · intro star c isHead
        cases body with
        | cons next body => exact parts.1 star c isHead
        | nil =>
            cases closed with
            | true =>
                have headEq : '*' = c := by simpa [Delimited.textWith] using isHead
                rw [← headEq]
                decide
            | false =>
                have atEnd : rest = [] := ends rfl
                simp [Delimited.textWith, atEnd] at isHead

end Lexeme

end StyleValue
