import StyleValue.Tree.Lexeme

/-! A text and its bytes in UTF-8 are scanned alike. Every mark is one byte, and
no byte of a longer character is a mark, so a scan over the bytes takes whole
characters. A backslash protects only the first byte of the character after it;
the other bytes of that character need no protection. -/

namespace StyleValue

/-- The bytes of a text in UTF-8. -/
def encode (text : List Char) : List UInt8 :=
  text.flatMap String.utf8EncodeChar

@[simp] theorem encode_nil : encode [] = [] := rfl

@[simp] theorem encode_cons (c : Char) (rest : List Char) :
    encode (c :: rest) = String.utf8EncodeChar c ++ encode rest :=
  List.flatMap_cons

@[simp] theorem encode_append (first second : List Char) :
    encode (first ++ second) = encode first ++ encode second :=
  List.flatMap_append

theorem encode_ne_nil {text : List Char} (nonempty : text ≠ []) :
    encode text ≠ [] := by
  cases text with
  | nil => contradiction
  | cons c rest =>
      rw [encode_cons]
      exact List.append_ne_nil_of_left_ne_nil String.utf8EncodeChar_ne_nil _

/-- The bytes of one character: a mark or another ASCII character is a byte with
its own code, and all bytes of any other character are above ASCII. -/
inductive IsEncoded (c : Char) : List UInt8 → Prop
  | ascii {byte : UInt8} (same : Symbol.code byte = Symbol.code c) :
      IsEncoded c [byte]
  | long {first : UInt8} {more : List UInt8} (above : 128 ≤ Symbol.code c)
      (allAbove : ∀ byte ∈ first :: more, 128 ≤ Symbol.code byte) :
      IsEncoded c (first :: more)

theorem code_ofNat {code : Nat} (small : code < 256) :
    Symbol.code (UInt8.ofNat code) = code :=
  Nat.mod_eq_of_lt small

theorem isEncoded_utf8EncodeChar (c : Char) :
    IsEncoded c (String.utf8EncodeChar c) := by
  have above {code : Nat} (small : code < 256) (high : 128 ≤ code) :
      128 ≤ Symbol.code (UInt8.ofNat code) := by
    rwa [code_ofNat small]
  fun_cases String.utf8EncodeChar c with
  | case1 code isAscii =>
      exact .ascii (code_ofNat (by omega))
  | case2 code notAscii isTwo =>
      refine .long (Nat.lt_of_not_le notAscii) ?_
      simp only [List.forall_mem_cons]
      exact ⟨above (by omega) (by omega), above (by omega) (by omega), nofun⟩
  | case3 code notAscii notTwo isThree =>
      refine .long (Nat.lt_of_not_le notAscii) ?_
      simp only [List.forall_mem_cons]
      exact ⟨above (by omega) (by omega), above (by omega) (by omega),
        above (by omega) (by omega), nofun⟩
  | case4 code notAscii notTwo notThree =>
      refine .long (Nat.lt_of_not_le notAscii) ?_
      simp only [List.forall_mem_cons]
      exact ⟨above (by omega) (by omega), above (by omega) (by omega),
        above (by omega) (by omega), above (by omega) (by omega), nofun⟩

/-- A test of bytes and a test of characters that look for the same ASCII
characters. -/
structure SeesAscii (byteTest : UInt8 → Bool) (test : Char → Bool) : Prop where
  eq_of_code : ∀ {byte : UInt8} {c : Char},
    Symbol.code byte = Symbol.code c → byteTest byte = test c
  byte_above : ∀ {byte : UInt8}, 128 ≤ Symbol.code byte → byteTest byte = false
  above : ∀ {c : Char}, 128 ≤ Symbol.code c → test c = false

namespace SeesAscii

theorem is {mark : Char} (ascii : mark.toNat < 128) :
    SeesAscii (Symbol.is mark) (Symbol.is mark) := by
  refine ⟨fun same => ?_, fun above => ?_, fun above => ?_⟩
  · rw [Symbol.is, Symbol.is, same]
  · rw [Symbol.is, beq_eq_false_iff_ne]
    omega
  · rw [Symbol.is, beq_eq_false_iff_ne]
    omega

theorem isBlank : SeesAscii Symbol.isBlank Symbol.isBlank := by
  refine ⟨fun same => ?_, fun above => ?_, fun above => ?_⟩
  · rw [Symbol.isBlank, Symbol.isBlank, same]
  · rw [Symbol.isBlank, decide_eq_false_iff_not]
    omega
  · rw [Symbol.isBlank, decide_eq_false_iff_not]
    omega

variable {byteTest byteTest' : UInt8 → Bool} {test test' : Char → Bool}

theorem or (sees : SeesAscii byteTest test) (sees' : SeesAscii byteTest' test') :
    SeesAscii (fun byte => byteTest byte || byteTest' byte)
      (fun c => test c || test' c) := by
  refine ⟨fun same => ?_, fun above => ?_, fun above => ?_⟩
  · rw [sees.eq_of_code same, sees'.eq_of_code same]
  · rw [sees.byte_above above, sees'.byte_above above, Bool.or_false]
  · rw [sees.above above, sees'.above above, Bool.or_false]

theorem and (condition : Bool) (sees : SeesAscii byteTest test) :
    SeesAscii (fun byte => condition && byteTest byte)
      (fun c => condition && test c) := by
  refine ⟨fun same => ?_, fun above => ?_, fun above => ?_⟩
  · rw [sees.eq_of_code same]
  · rw [sees.byte_above above, Bool.and_false]
  · rw [sees.above above, Bool.and_false]

theorem isQuote : SeesAscii Symbol.isQuote Symbol.isQuote :=
  (is (by decide)).or (is (by decide))

theorem isSome_dividerOf? :
    SeesAscii (fun byte => (Lexeme.dividerOf? byte).isSome)
      (fun c => (Lexeme.dividerOf? c).isSome) := by
  have isMark {α : Type} [Symbol α] (symbol : α) :
      (Lexeme.dividerOf? symbol).isSome =
        (Symbol.is ',' symbol ||
          (Symbol.is '/' symbol || Symbol.is ':' symbol)) := by
    unfold Lexeme.dividerOf?
    cases Symbol.is ',' symbol <;> cases Symbol.is '/' symbol <;>
      cases Symbol.is ':' symbol <;> rfl
  simp only [isMark]
  exact (is (by decide)).or ((is (by decide)).or (is (by decide)))

theorem endsWord (nested : Bool) :
    SeesAscii (Lexeme.endsWord nested) (Lexeme.endsWord nested) :=
  (((isBlank.or isQuote).or isSome_dividerOf?).or (is (by decide))).or
    ((is (by decide)).and nested)

/-- The first byte of a character passes for the character. -/
theorem eq_of_isEncoded (sees : SeesAscii byteTest test) {c : Char}
    {first : UInt8} {more : List UInt8} (encoded : IsEncoded c (first :: more)) :
    byteTest first = test c := by
  cases encoded with
  | ascii same => exact sees.eq_of_code same
  | long above allAbove =>
      rw [sees.byte_above (allAbove first List.mem_cons_self), sees.above above]

theorem dividerOf?_eq_of_isEncoded {c : Char} {first : UInt8}
    {more : List UInt8} (encoded : IsEncoded c (first :: more)) :
    Lexeme.dividerOf? first = Lexeme.dividerOf? c := by
  have eq (mark : Char) (ascii : mark.toNat < 128) :
      Symbol.is mark first = Symbol.is mark c :=
    (is ascii).eq_of_isEncoded encoded
  rw [Lexeme.dividerOf?, Lexeme.dividerOf?, eq ',' (by decide),
    eq '/' (by decide), eq ':' (by decide)]

theorem any_head?_encode (sees : SeesAscii byteTest test) (text : List Char) :
    (encode text).head?.any byteTest = text.head?.any test := by
  cases text with
  | nil => rfl
  | cons c rest =>
      rw [encode_cons]
      have encoded := isEncoded_utf8EncodeChar c
      generalize String.utf8EncodeChar c = bytes at encoded ⊢
      cases bytes with
      | nil => cases encoded
      | cons first more => exact sees.eq_of_isEncoded encoded

theorem tail_encode (sees : SeesAscii byteTest test) {text : List Char}
    (starts : text.head?.any test = true) :
    (encode text).tail = encode text.tail := by
  cases text with
  | nil => rfl
  | cons c rest =>
      have passes : test c = true := starts
      rw [encode_cons]
      have encoded := isEncoded_utf8EncodeChar c
      generalize String.utf8EncodeChar c = bytes at encoded
      cases encoded with
      | ascii => rfl
      | long above =>
          rw [sees.above above] at passes
          contradiction

theorem length_utf8EncodeChar (sees : SeesAscii byteTest test) {c : Char}
    (passes : test c = true) : (String.utf8EncodeChar c).length = 1 := by
  have encoded := isEncoded_utf8EncodeChar c
  generalize String.utf8EncodeChar c = bytes at encoded ⊢
  cases encoded with
  | ascii => rfl
  | long above =>
      rw [sees.above above] at passes
      contradiction

theorem takeWhile_encode (sees : SeesAscii byteTest test) (text : List Char) :
    (encode text).takeWhile byteTest = encode (text.takeWhile test) := by
  induction text with
  | nil => rfl
  | cons c rest ih =>
      rw [encode_cons, List.takeWhile_cons]
      have encoded := isEncoded_utf8EncodeChar c
      generalize isBytes : String.utf8EncodeChar c = bytes at encoded
      cases encoded with
      | ascii same =>
          rw [List.singleton_append, List.takeWhile_cons, sees.eq_of_code same,
            ih]
          split
          · rw [encode_cons, isBytes, List.singleton_append]
          · rfl
      | @long first more above allAbove =>
          rw [List.cons_append, List.takeWhile_cons, sees.above above,
            sees.byte_above (allAbove first List.mem_cons_self)]
          rfl

end SeesAscii

theorem length_encode_singleton {c : Char} (ascii : c.toNat < 128) :
    (encode [c]).length = 1 := by
  rw [encode_cons, encode_nil, List.append_nil]
  exact (SeesAscii.is ascii).length_utf8EncodeChar (by simp)

/-! Scanning. -/

def Delimited.encode (scanned : Delimited Char) : Delimited UInt8 :=
  ⟨StyleValue.encode scanned.content, StyleValue.encode scanned.rest,
    scanned.closed⟩

theorem is_backslash_eq_false {byte : UInt8} (above : 128 ≤ Symbol.code byte) :
    Symbol.is '\\' byte = false :=
  (SeesAscii.is (by decide)).byte_above above

theorem scanTo_append_above {mark : Char} (ascii : mark.toNat < 128)
    {first : UInt8} {more : List UInt8}
    (allAbove : ∀ byte ∈ first :: more, 128 ≤ Symbol.code byte)
    (escaped : Bool) (rest : List UInt8) :
    scanTo mark escaped (first :: more ++ rest) =
      ⟨first :: more ++ (scanTo mark false rest).content,
        (scanTo mark false rest).rest, (scanTo mark false rest).closed⟩ := by
  induction more generalizing first escaped with
  | nil =>
      have above := allAbove first List.mem_cons_self
      rw [List.singleton_append, scanTo, (SeesAscii.is ascii).byte_above above,
        is_backslash_eq_false above, Bool.and_false]
      rfl
  | cons second more ih =>
      have above := allAbove first List.mem_cons_self
      rw [List.cons_append, scanTo, (SeesAscii.is ascii).byte_above above,
        is_backslash_eq_false above, Bool.and_false,
        ih fun byte member => allAbove byte (List.mem_cons_of_mem _ member)]
      rfl

theorem scanTo_encode {mark : Char} (ascii : mark.toNat < 128) (escaped : Bool)
    (text : List Char) :
    scanTo mark escaped (encode text) = (scanTo mark escaped text).encode := by
  induction text generalizing escaped with
  | nil => rfl
  | cons c rest ih =>
      have isMark := SeesAscii.is ascii
      have isBackslash : SeesAscii (Symbol.is '\\') (Symbol.is '\\') :=
        .is (by decide)
      rw [encode_cons, scanTo]
      have encoded := isEncoded_utf8EncodeChar c
      generalize isBytes : String.utf8EncodeChar c = bytes at encoded
      cases encoded with
      | ascii same =>
          rw [List.singleton_append, scanTo, isMark.eq_of_code same,
            isBackslash.eq_of_code same, ih]
          split
          · rfl
          · simp only [Delimited.cons, Delimited.encode, encode_cons, isBytes,
              List.singleton_append]
      | long above allAbove =>
          rw [scanTo_append_above ascii allAbove, isMark.above above,
            isBackslash.above above, Bool.and_false, ih]
          simp only [Bool.false_eq_true, if_false, Delimited.cons,
            Delimited.encode, encode_cons, isBytes]

namespace Lexeme

theorem scanWord_append_above {nested : Bool} {first : UInt8}
    {more : List UInt8}
    (allAbove : ∀ byte ∈ first :: more, 128 ≤ Symbol.code byte)
    (escaped : Bool) (rest : List UInt8) :
    scanWord nested escaped (first :: more ++ rest) =
      (first :: more ++ (scanWord nested false rest).1,
        (scanWord nested false rest).2) := by
  induction more generalizing first escaped with
  | nil =>
      have above := allAbove first List.mem_cons_self
      rw [List.singleton_append, scanWord,
        (SeesAscii.endsWord nested).byte_above above,
        is_backslash_eq_false above, Bool.and_false]
      rfl
  | cons second more ih =>
      have above := allAbove first List.mem_cons_self
      rw [List.cons_append, scanWord,
        (SeesAscii.endsWord nested).byte_above above,
        is_backslash_eq_false above, Bool.and_false,
        ih fun byte member => allAbove byte (List.mem_cons_of_mem _ member)]
      rfl

theorem scanWord_encode (nested escaped : Bool) (text : List Char) :
    scanWord nested escaped (encode text) =
      (encode (scanWord nested escaped text).1,
        encode (scanWord nested escaped text).2) := by
  induction text generalizing escaped with
  | nil => rfl
  | cons c rest ih =>
      have ends := SeesAscii.endsWord nested
      have isBackslash : SeesAscii (Symbol.is '\\') (Symbol.is '\\') :=
        .is (by decide)
      rw [encode_cons, scanWord]
      have encoded := isEncoded_utf8EncodeChar c
      generalize isBytes : String.utf8EncodeChar c = bytes at encoded
      cases encoded with
      | ascii same =>
          rw [List.singleton_append, scanWord, ends.eq_of_code same,
            isBackslash.eq_of_code same, ih]
          split
          · rw [encode_cons, isBytes]
            rfl
          · simp only [encode_cons, isBytes, List.singleton_append]
      | long above allAbove =>
          rw [scanWord_append_above allAbove, ends.above above,
            isBackslash.above above, Bool.and_false, ih]
          simp only [Bool.false_eq_true, if_false, encode_cons, isBytes]

theorem scanComment_eq {α : Type} [Symbol α] (symbol : α) (rest : List α) :
    scanComment (symbol :: rest) =
      if Symbol.is '*' symbol && rest.head?.any (Symbol.is '/') then
        ⟨[], rest.tail, true⟩
      else (scanComment rest).cons symbol := by
  cases rest with
  | nil => simp [scanComment, Delimited.cons]
  | cons next rest => rw [scanComment]; rfl

theorem scanComment_append_above {first : UInt8} {more : List UInt8}
    (allAbove : ∀ byte ∈ first :: more, 128 ≤ Symbol.code byte)
    (rest : List UInt8) :
    scanComment (first :: more ++ rest) =
      ⟨first :: more ++ (scanComment rest).content, (scanComment rest).rest,
        (scanComment rest).closed⟩ := by
  have isStar : SeesAscii (Symbol.is '*') (Symbol.is '*') := .is (by decide)
  induction more generalizing first with
  | nil =>
      have above := allAbove first List.mem_cons_self
      rw [List.singleton_append, scanComment_eq, isStar.byte_above above]
      rfl
  | cons second more ih =>
      have above := allAbove first List.mem_cons_self
      rw [List.cons_append, scanComment_eq, isStar.byte_above above,
        ih fun byte member => allAbove byte (List.mem_cons_of_mem _ member)]
      rfl

theorem scanComment_encode (text : List Char) :
    scanComment (encode text) = (scanComment text).encode := by
  have isStar : SeesAscii (Symbol.is '*') (Symbol.is '*') := .is (by decide)
  have isSlash : SeesAscii (Symbol.is '/') (Symbol.is '/') := .is (by decide)
  induction text with
  | nil => rfl
  | cons c rest ih =>
      rw [encode_cons, scanComment_eq]
      have encoded := isEncoded_utf8EncodeChar c
      generalize isBytes : String.utf8EncodeChar c = bytes at encoded
      cases encoded with
      | ascii same =>
          rw [List.singleton_append, scanComment_eq, isStar.eq_of_code same,
            isSlash.any_head?_encode, ih]
          split
          next closes =>
            have startsWithSlash := (Bool.and_eq_true_iff.mp closes).2
            rw [isSlash.tail_encode startsWithSlash]
            rfl
          next =>
            simp only [Delimited.cons, Delimited.encode, encode_cons, isBytes,
              List.singleton_append]
      | long above allAbove =>
          rw [scanComment_append_above allAbove, isStar.above above, ih]
          simp only [Bool.false_and, Bool.false_eq_true, if_false,
            Delimited.cons, Delimited.encode, encode_cons, isBytes]

end Lexeme

end StyleValue
