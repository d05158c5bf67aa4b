import StyleValue.Proofs.Text.Place
import StyleValue.Proofs.Text.Search
import StyleValue.Proofs.Tree.Reading

/-! The end of a quoted string or of a bare address is searched for in the bytes
of the text. What stands before the place where the search starts is a quote, a
bracket or a blank, never a backslash, and so the search finds what a scan that
only goes forward finds: the end of the lexeme that is read. -/

namespace StyleValue

/-- A part of a text up to the mark that is searched for, after the part before
the place where the search starts. -/
structure Enclosure where
  mark : Char
  opening : List Char
  content : List Char
  closed : Bool

namespace Enclosure

/-- The place in the bytes where the search starts. -/
def start (earlier : List (Lexeme Char)) (enclosure : Enclosure) : Nat :=
  (encode (earlier.flatMap Lexeme.text ++ enclosure.opening)).length

/-- The place of the mark, if there is one. -/
def closing? (earlier : List (Lexeme Char)) (enclosure : Enclosure) :
    Option Nat :=
  if enclosure.closed then
    some (enclosure.start earlier + (encode enclosure.content).length)
  else none

end Enclosure

/-- The mark that a lexeme is searched for, if it is. -/
def Lexeme.enclosure? : Lexeme Char → Option Enclosure
  | .quoted quote value closed => some ⟨quote, [quote], value, closed⟩
  | .url name before address after closed =>
      some ⟨')', name ++ '(' :: before, address ++ after, closed⟩
  | _ => none

/-! A place after a character that is not a backslash. -/

theorem IsEncoded.notBackslash {c : Char} {bytes : List UInt8}
    (encoded : IsEncoded c bytes) (notBackslash : c ≠ '\\') :
    ∀ byte ∈ bytes, Symbol.is '\\' byte = false := by
  intro byte member
  cases encoded with
  | ascii same =>
      rw [List.mem_singleton.mp member, Symbol.is, same]
      exact (Symbol.is_eq_false_iff '\\' c).mpr notBackslash
  | long above allAbove => exact is_backslash_eq_false (allAbove byte member)

theorem afterNoBackslash_append {front after : List Char} {last : Char}
    (notBackslash : last ≠ '\\') :
    AfterNoBackslash (encode (front ++ [last] ++ after))
      (encode (front ++ [last])).length := by
  intro place byte isBefore found
  have encoded := isEncoded_utf8EncodeChar last
  have nonempty : 0 < (String.utf8EncodeChar last).length :=
    List.length_pos_iff.mpr String.utf8EncodeChar_ne_nil
  simp only [encode_append, encode_cons, encode_nil, List.append_nil,
    List.length_append] at isBefore found
  rw [List.append_assoc, List.getElem?_append_right (by omega),
    List.getElem?_append_left (by omega)] at found
  exact encoded.notBackslash notBackslash byte (List.mem_of_getElem? found)

/-! One lexeme. -/

namespace Lexeme

variable {nested : Bool} {rest before name : List Char} {lexeme : Lexeme Char}
  {enclosure : Enclosure}

theorem AllBlank.exists_last (blank : AllBlank before) (name : List Char) :
    ∃ front last, name ++ '(' :: before = front ++ [last] ∧ last ≠ '\\' := by
  rcases before.eq_nil_or_concat with rfl | ⟨init, last, rfl⟩
  · exact ⟨name, '(', rfl, by decide⟩
  · have isBlank := blank last (by simp)
    refine ⟨name ++ '(' :: init, last, by simp, ?_⟩
    rintro rfl
    contradiction

theorem text_append_of_enclosure?
    (isEnclosure : lexeme.enclosure? = some enclosure) (rest : List Char) :
    lexeme.text ++ rest =
      enclosure.opening ++ Delimited.textWith [enclosure.mark]
        ⟨enclosure.content, rest, enclosure.closed⟩ := by
  cases lexeme with
  | quoted | url =>
      cases isEnclosure
      simp [text, Delimited.textWith]
  | blank | comment | divider | opening | closing | word => contradiction

/-- The mark is ASCII and no backslash, the search for it starts after no
backslash, and it is the first that nothing protects. -/
theorem Fits.encloses (fits : lexeme.Fits nested rest)
    (isEnclosure : lexeme.enclosure? = some enclosure) :
    (enclosure.mark.toNat < 128 ∧ enclosure.mark ≠ '\\') ∧
      (∃ front last, enclosure.opening = front ++ [last] ∧ last ≠ '\\') ∧
      IsDelimited enclosure.mark false
        ⟨enclosure.content, rest, enclosure.closed⟩ := by
  cases fits with
  | @quoted quote value closed isQuote delimited =>
      cases isEnclosure
      have marks := Bool.or_eq_true_iff.mp isQuote
      simp only [Symbol.is_eq_true_iff] at marks
      have isMark : quote.toNat < 128 ∧ quote ≠ '\\' := by
        rcases marks with rfl | rfl <;> decide
      exact ⟨isMark, ⟨[], quote, rfl, isMark.2⟩, delimited⟩
  | @url name _ _ _ _ _ _ blankBefore _ _ _ delimited =>
      cases isEnclosure
      have isMark : ')'.toNat < 128 ∧ ')' ≠ '\\' := by decide
      exact ⟨isMark, blankBefore.exists_last name, delimited⟩
  | blank | comment | divider | opening | closing | word => contradiction

end Lexeme

/-! All lexemes of a text. -/

/-- The search from a place after no backslash finds what the forward scan of
the characters finds. -/
theorem firstUnprotected?_encode {mark : Char} (ascii : mark.toNat < 128)
    {before : List Char} {scanned : Delimited Char}
    (after : AfterNoBackslash (encode (before ++ scanned.textWith [mark]))
      (encode before).length)
    (delimited : IsDelimited mark false scanned) :
    firstUnprotected? (encode (before ++ scanned.textWith [mark]))
        (encode before).length mark =
      scanned.encode.closing? (encode before).length := by
  have bounded : (encode before).length ≤
      (encode (before ++ scanned.textWith [mark])).length := by
    rw [encode_append, List.length_append]
    exact Nat.le_add_right _ _
  rw [firstUnprotected?_eq, isProtectedAt_of_afterNoBackslash after bounded,
    encode_append, List.drop_left, scanTo_encode ascii,
    scanTo_of_isDelimited delimited]

namespace Lexeme

variable {text : String} {earlier later : List (Lexeme Char)}
  {lexeme : Lexeme Char} {enclosure : Enclosure}

/-- The search for the end of a lexeme starts after no backslash and ends with
the lexeme. -/
theorem closing?_of_lex
    (isLexed : lex 0 text.toList = earlier ++ lexeme :: later)
    (isEnclosure : lexeme.enclosure? = some enclosure) :
    enclosure.mark ≠ '\\' ∧
      AfterNoBackslash (Bytes.ofText text) (enclosure.start earlier) ∧
      firstUnprotected? (Bytes.ofText text) (enclosure.start earlier)
        enclosure.mark = enclosure.closing? earlier := by
  have fit := allFit_lex 0 text.toList
  have whole := flatMap_text_lex 0 text.toList
  rw [isLexed] at fit whole
  obtain ⟨depth, fits, -⟩ := fit.exists_of_append
  obtain ⟨⟨ascii, notBackslash⟩, ⟨front, last, opens, notLast⟩, delimited⟩ :=
    fits.encloses isEnclosure
  rw [List.flatMap_append, List.flatMap_cons,
    text_append_of_enclosure? isEnclosure, ← List.append_assoc] at whole
  have after : AfterNoBackslash (Bytes.ofText text)
      (enclosure.start earlier) := by
    rw [Bytes.ofText_eq, ← whole, Enclosure.start, opens, ← List.append_assoc]
    exact afterNoBackslash_append notLast
  refine ⟨notBackslash, after, ?_⟩
  rw [Bytes.ofText_eq, ← whole] at after ⊢
  exact firstUnprotected?_encode ascii after delimited

end Lexeme

/-- The search that looks back at every mark it meets. Whatever it starts with,
it is over after some number of rounds and has found the first unprotected mark.
If no backslash stands right before its start and the mark is not a backslash,
that is where a scan stops that only goes forward and takes two bytes at every
backslash. Every search for the end of a lexeme is such a search, and ends with
the lexeme. -/
theorem searches_iff_and_eq_skipTo? :
    (∀ (bytes : List UInt8) (mark : Char) (start : Nat) (found : Option Nat),
      Searches bytes mark start found ↔
        found = firstUnprotected? bytes start mark) ∧
    (∀ (bytes : List UInt8) (mark : Char) (start : Nat), mark ≠ '\\' →
      AfterNoBackslash bytes start →
        firstUnprotected? bytes start mark = skipTo? bytes mark start) ∧
    ∀ (text : String) (earlier later : List (Lexeme Char))
      (lexeme : Lexeme Char) (enclosure : Enclosure),
      Lexeme.lex 0 text.toList = earlier ++ lexeme :: later →
      lexeme.enclosure? = some enclosure →
        enclosure.mark ≠ '\\' ∧
          AfterNoBackslash (Bytes.ofText text) (enclosure.start earlier) ∧
          Searches (Bytes.ofText text) enclosure.mark (enclosure.start earlier)
            (enclosure.closing? earlier) := by
  refine ⟨fun bytes mark start found => searches_iff, ?_, ?_⟩
  · intro bytes mark start notBackslash after
    rw [skipTo?_eq notBackslash]
    intro inside
    exact isProtectedAt_of_afterNoBackslash after (Nat.le_of_lt inside)
  · intro text earlier later lexeme enclosure isLexed isEnclosure
    obtain ⟨notBackslash, after, finds⟩ :=
      Lexeme.closing?_of_lex isLexed isEnclosure
    exact ⟨notBackslash, after, searches_iff.mpr finds.symm⟩

theorem searches_iff_and_eq_skipTo?_escaped :
    AfterNoBackslash [0x27, 0x5C, 0x5C, 0x27, (0x27 : UInt8)] 1 ∧
      firstUnprotected? [0x27, 0x5C, 0x5C, 0x27, (0x27 : UInt8)] 1 '\'' =
        skipTo? [0x27, 0x5C, 0x5C, 0x27, (0x27 : UInt8)] '\'' 1 ∧
      Lexeme.lex 0 "'\\''".toList = [.quoted '\'' ['\\', '\''] true] ∧
      Searches (Bytes.ofText "'\\''") '\'' 1 (some 3) := by
  have forward := searches_iff_and_eq_skipTo?
  have after : AfterNoBackslash [0x27, 0x5C, 0x5C, 0x27, (0x27 : UInt8)] 1 := by
    intro before symbol isBefore found
    cases isBefore
    cases found
    rfl
  have isLexed : Lexeme.lex 0 "'\\''".toList =
      [.quoted '\'' ['\\', '\''] true] := by
    have fits : Lexeme.AllFit 0 [.quoted '\'' ['\\', '\''] true] :=
      ⟨.quoted rfl (scanTo_isDelimited '\'' false ['\\', '\'', '\'']), trivial⟩
    exact Lexeme.lex_flatMap_text fits
  have finds := forward.2.2 "'\\''" [] [] _ _ isLexed rfl
  exact ⟨after, forward.2.1 _ '\'' 1 (by decide) after, isLexed, finds.2.2⟩

end StyleValue
