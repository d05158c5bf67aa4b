import StyleValue.Proofs.Text.Place
import StyleValue.Proofs.Tree.Reading
import StyleValue.Tree.Parse

/-! Reading by places in the bytes of a text. A step looks at single bytes, and
cuts the text at the places it finds. A cut inside a character is no cut, and
neither is one past the end or one that ends before it starts; a byte past the
end is no byte. Nothing of that comes about: every place at which a step starts
or cuts lies between two characters, and the tree is the one that is read from
the characters. -/

namespace StyleValue

namespace Bytes

/-- The first place, from `place` on, with no blank. -/
def skipBlanks (bytes : List UInt8) (place : Nat) : Nat :=
  place + ((bytes.drop place).takeWhile Symbol.isBlank).length

/-- Where a word with a byte at `place` ends. A backslash takes the next byte
along, which may be the first of several that make up a character. -/
def wordEnd? (nested : Bool) (bytes : List UInt8) (place : Nat) : Option Nat :=
  if inside : place < bytes.length then
    let next := place + 1 + (Symbol.is '\\' bytes[place]).toNat
    if within : next < bytes.length then
      if Lexeme.endsWord nested bytes[next] then some next
      else wordEnd? nested bytes next
    else some bytes.length
  else none
termination_by bytes.length - place

/-- The first place, from `start` on, of a star that a slash follows. -/
def commentEnd? (bytes : List UInt8) (start : Nat) : Option Nat :=
  (List.range' start (bytes.length - start)).find? fun place =>
    bytes[place]?.any (Symbol.is '*') && bytes[place + 1]?.any (Symbol.is '/')

def readOpening? (text : String) (name : List Char) (place : Nat) :
    Option (Lexeme Char × Nat) := do
  let bytes := ofText text
  let inside := skipBlanks bytes place
  let before ← cut? text place inside
  if Symbol.spells "url" name && !bytes[inside]?.any Symbol.isQuote then
    let closing := firstUnprotected? bytes inside ')'
    let stop := closing.getD bytes.length
    let content ← cut? text inside stop
    let address := Lexeme.dropBlankEnd content
    let after ← cut? text (inside + (encode address).length) stop
    return (.url name before address after closing.isSome,
      min (stop + 1) bytes.length)
  else return (.opening name before, inside)

/-- The lexeme that begins with `first` at a place, and the place after it. -/
def readAt? {α : Type} [Symbol α] (text : String) (nested : Bool) (place : Nat)
    (first : α) : Option (Lexeme Char × Nat) := do
  let bytes := ofText text
  if Symbol.isBlank first then
    let stop := skipBlanks bytes place
    return (.blank (← cut? text place stop), stop)
  else if Symbol.isQuote first then
    let quote := if Symbol.is '"' first then '"' else '\''
    let closing := firstUnprotected? bytes (place + 1) quote
    let stop := closing.getD bytes.length
    return (.quoted quote (← cut? text (place + 1) stop) closing.isSome,
      min (stop + 1) bytes.length)
  else if Symbol.is '/' first && bytes[place + 1]?.any (Symbol.is '*') then
    let closing := commentEnd? bytes (place + 2)
    let stop := closing.getD bytes.length
    return (.comment (← cut? text (place + 2) stop) closing.isSome,
      closing.elim bytes.length (· + 2))
  else match Lexeme.dividerOf? first with
    | some kind => return (.divider kind, place + 1)
    | none =>
        if Symbol.is '(' first then readOpening? text [] (place + 1)
        else if nested && Symbol.is ')' first then return (.closing, place + 1)
        else
          let stop ← wordEnd? nested bytes place
          let word ← cut? text place stop
          if bytes[stop]?.any (Symbol.is '(') then
            readOpening? text word (stop + 1)
          else return (.word word, stop)

def read? (text : String) (nested : Bool) (place : Nat) :
    Option (Lexeme Char × Nat) :=
  (ofText text)[place]?.bind (readAt? text nested place)

/-- The lexemes from a place on. A step that gets nowhere is no step. -/
def lex? (text : String) (depth place : Nat) : Option (List (Lexeme Char)) :=
  if place < (ofText text).length then
    match read? text (0 < depth) place with
    | none => none
    | some (lexeme, next) =>
        if place < next then
          (lex? text (lexeme.depthAfter depth) next).map (lexeme :: ·)
        else none
  else some []
termination_by (ofText text).length - place

def parse? (text : String) : Option (List Node) :=
  (lex? text 0 0).map fun lexemes => (Draft.empty.extend lexemes).finish

theorem scanWord_eq (nested escaped : Bool) (rest : List UInt8) :
    (Lexeme.scanWord nested escaped rest).1 =
      rest.take escaped.toNat ++
        (Lexeme.scanWord nested false (rest.drop escaped.toNat)).1 := by
  cases escaped with
  | false => rfl
  | true =>
      cases rest with
      | nil => rfl
      | cons byte rest => simp [Lexeme.scanWord]

theorem wordEnd?_eq {nested : Bool} {bytes : List UInt8} {place : Nat}
    (inside : place < bytes.length) :
    wordEnd? nested bytes place =
      some (place + 1 + (Lexeme.scanWord nested (Symbol.is '\\' bytes[place])
        (bytes.drop (place + 1))).1.length) := by
  fun_induction wordEnd? nested bytes place
  case case1 place inside next within stops =>
    rw [scanWord_eq, List.drop_drop, List.drop_eq_getElem_cons within]
    simp only [Lexeme.scanWord, stops, Bool.not_false, Bool.true_and, if_true,
      List.append_nil, List.length_take, List.length_drop]
    rw [Nat.min_eq_left (by omega)]
  case case2 place inside next within goesOn ih =>
    rw [ih within, scanWord_eq nested (Symbol.is '\\' bytes[place]),
      List.drop_drop, List.drop_eq_getElem_cons within]
    simp only [Lexeme.scanWord, goesOn, Bool.not_false, Bool.true_and,
      Bool.false_eq_true, if_false, List.length_append, List.length_cons,
      List.length_take, List.length_drop]
    rw [Nat.min_eq_left (by omega)]
    congr 1
    omega
  case case3 place inside next atEnd =>
    rw [scanWord_eq, List.drop_drop,
      List.drop_eq_nil_of_le (Nat.le_of_not_lt atEnd)]
    simp only [Lexeme.scanWord, List.append_nil, List.length_take,
      List.length_drop]
    rw [Nat.min_eq_right (by omega)]
    congr 1
    omega
  case case4 place outside => exact absurd inside outside

theorem wordEnd?_of_goesOn {nested : Bool} {bytes : List UInt8} {place : Nat}
    {byte : UInt8} (found : bytes[place]? = some byte)
    (goesOn : Lexeme.endsWord nested byte = false) :
    wordEnd? nested bytes place =
      some (place + (Lexeme.scanWord nested false
        (bytes.drop place)).1.length) := by
  obtain ⟨inside, rfl⟩ := List.getElem?_eq_some_iff.mp found
  rw [wordEnd?_eq inside, List.drop_eq_getElem_cons inside, Lexeme.scanWord,
    goesOn, Bool.and_false]
  simp only [Bool.false_eq_true, if_false, Bool.not_false, Bool.true_and,
    List.length_cons]
  rw [Nat.add_assoc, Nat.add_comm 1]

theorem commentEnd?_eq (bytes : List UInt8) (start : Nat) :
    commentEnd? bytes start =
      (Lexeme.scanComment (bytes.drop start)).closing? start := by
  generalize isRest : bytes.drop start = rest
  induction rest generalizing start with
  | nil =>
      rw [commentEnd?, find?_places_nil isRest]
      rfl
  | cons byte rest ih =>
      have isTail := drop_succ_of_drop isRest
      have later := ih (start + 1) isTail
      rw [commentEnd?] at later
      rw [commentEnd?, find?_places_cons isRest, later,
        getElem?_of_drop isRest, ← List.head?_drop, isTail, Option.any_some,
        Lexeme.scanComment_eq]
      split
      · rfl
      · rw [Delimited.closing?_cons]

theorem IsPlace.skipBlanks_eq {text : String} {place : Nat} {rest : List Char}
    (isPlace : IsPlace text place rest) :
    skipBlanks (ofText text) place =
      place + (encode (rest.takeWhile Symbol.isBlank)).length := by
  rw [skipBlanks, isPlace.drop_eq, SeesAscii.isBlank.takeWhile_encode]

theorem isProtectedAt_skipBlanks {bytes : List UInt8} {place : Nat}
    (free : isProtectedAt bytes place = false) :
    isProtectedAt bytes (skipBlanks bytes place) = false := by
  rw [skipBlanks]
  generalize isRest : bytes.drop place = rest
  induction rest generalizing place with
  | nil => exact free
  | cons byte rest ih =>
      rw [List.takeWhile_cons]
      split
      next isBlank =>
        have notBackslash : Symbol.is '\\' byte = false := by
          have blank : Symbol.code byte ≤ 0x20 := of_decide_eq_true isBlank
          rw [Symbol.is, beq_eq_false_iff_ne]
          change Symbol.code byte ≠ 92
          omega
        have later := isProtectedAt_eq_false (getElem?_of_drop isRest) notBackslash
        have skipped := ih later (drop_succ_of_drop isRest)
        rwa [Nat.add_assoc, Nat.add_comm 1] at skipped
      next => exact free

theorem IsPlace.cut?_blankEnd {text : String} {start : Nat} {mark : List Char}
    {scanned : Delimited Char}
    (isPlace : IsPlace text start (scanned.textWith mark)) :
    cut? text
        (start + (encode (Lexeme.dropBlankEnd scanned.content)).length)
        (start + (encode scanned.content).length) =
      some (Lexeme.blankEnd scanned.content) := by
  have pieces := Lexeme.dropBlankEnd_append_blankEnd scanned.content
  rw [Delimited.textWith, List.append_assoc, ← pieces, List.append_assoc]
    at isPlace
  have stop := congrArg (fun content => (encode content).length) pieces
  simp only [encode_append, List.length_append] at stop
  rw [← stop, ← Nat.add_assoc]
  exact isPlace.advance.cut?_eq

theorem readOpening?_eq {text : String} {place : Nat} {inside : List Char}
    (isPlace : IsPlace text place inside)
    (free : isProtectedAt (ofText text) place = false) (name : List Char) :
    ∃ next, readOpening? text name place =
        some ((Lexeme.readOpening name inside).1, next) ∧
      IsPlace text next (Lexeme.readOpening name inside).2 := by
  have ascii : ')'.toNat < 128 := by decide
  have whole : inside.takeWhile Symbol.isBlank ++
      inside.dropWhile Symbol.isBlank = inside :=
    List.takeWhile_append_dropWhile
  have isSplit := isPlace
  rw [← whole] at isSplit
  have isInside := isSplit.advance
  have stillFree := isProtectedAt_skipBlanks free
  rw [isPlace.skipBlanks_eq] at stillFree
  simp only [readOpening?, isPlace.skipBlanks_eq, isSplit.cut?_eq,
    isInside.getElem?_eq, SeesAscii.isQuote.any_head?_encode,
    firstUnprotected?_eq, stillFree, isInside.drop_eq, scanTo_encode ascii,
    Lexeme.readOpening, Option.bind_eq_bind, Option.bind_some]
  generalize inside.dropWhile Symbol.isBlank = address at isInside ⊢
  split
  next isRaw =>
    have ends := (scanTo_isDelimited ')' false address).ends
    rw [← scanTo_textWith ')' false address] at isInside
    rw [isInside.closing?_getD ends, isInside.cut?_content]
    have afterCut := isInside.cut?_blankEnd
    simp only [Option.bind_some, afterCut, IsPlace.isSome_closing?]
    exact ⟨_, rfl, isInside.rest_min ascii ends⟩
  next => exact ⟨_, rfl, isInside⟩

/-! One step. -/

section Step

variable {text : String} {place : Nat} {c : Char} {rest : List Char}

theorem exists_byte (isPlace : IsPlace text place (c :: rest)) :
    ∃ byte more, (ofText text)[place]? = some byte ∧
      IsEncoded c (byte :: more) := by
  have encoded := isEncoded_utf8EncodeChar c
  have found := isPlace.getElem?_eq
  rw [encode_cons] at found
  generalize String.utf8EncodeChar c = bytes at encoded found
  cases bytes with
  | nil => cases encoded
  | cons byte more => exact ⟨byte, more, found, encoded⟩

theorem isProtectedAt_succ_place (isPlace : IsPlace text place (c :: rest))
    (notBackslash : c ≠ '\\') :
    isProtectedAt (ofText text) (place + 1) = false := by
  obtain ⟨byte, more, found, encoded⟩ := exists_byte isPlace
  have isBackslash : SeesAscii (Symbol.is '\\') (Symbol.is '\\') :=
    .is (by decide)
  apply isProtectedAt_eq_false found
  rw [isBackslash.eq_of_isEncoded encoded, Symbol.is_eq_false_iff]
  exact notBackslash

theorem readAfterWord?_eq {word after : List Char}
    (isPlace : IsPlace text place (word ++ after)) :
    ∃ next,
      (if (ofText text)[place + (encode word).length]?.any (Symbol.is '(') then
        readOpening? text word (place + (encode word).length + 1)
      else some (.word word, place + (encode word).length)) =
        some ((Lexeme.readAfterWord word after).1, next) ∧
      IsPlace text next (Lexeme.readAfterWord word after).2 := by
  have isOpen : SeesAscii (Symbol.is '(') (Symbol.is '(') := .is (by decide)
  have isAfter := isPlace.advance
  rw [isAfter.getElem?_eq, isOpen.any_head?_encode]
  cases after with
  | nil => exact ⟨_, rfl, isAfter⟩
  | cons next inside =>
      rw [List.head?_cons, Option.any_some, Lexeme.readAfterWord]
      split
      next opens =>
        have isInside := isAfter.advance_mark isOpen opens
        have isMark : next = '(' := by simpa using opens
        subst next
        exact readOpening?_eq isInside
          (isProtectedAt_succ_place isAfter (by decide)) word
      next => exact ⟨_, rfl, isAfter⟩

/-- A step takes the first byte of a character for the character. -/
theorem read?_eq_readAt? (nested : Bool)
    (isPlace : IsPlace text place (c :: rest)) :
    read? text nested place = readAt? text nested place c := by
  obtain ⟨byte, more, found, encoded⟩ := exists_byte isPlace
  have eq (mark : Char) (ascii : mark.toNat < 128) :
      Symbol.is mark byte = Symbol.is mark c :=
    (SeesAscii.is ascii).eq_of_isEncoded encoded
  simp only [read?, found, Option.bind_some, readAt?,
    SeesAscii.isBlank.eq_of_isEncoded encoded,
    SeesAscii.isQuote.eq_of_isEncoded encoded,
    SeesAscii.dividerOf?_eq_of_isEncoded encoded, eq '"' (by decide),
    eq '/' (by decide), eq '(' (by decide), eq ')' (by decide)]

theorem readAt?_of_word {nested : Bool}
    (isPlace : IsPlace text place (c :: rest))
    (goesOn : Lexeme.endsWord nested c = false) :
    ∃ next, readAt? text nested place c =
        some ((Lexeme.read nested c rest).1, next) ∧
      IsPlace text next (Lexeme.read nested c rest).2 := by
  obtain ⟨byte, more, found, encoded⟩ := exists_byte isPlace
  have byteGoesOn : Lexeme.endsWord nested byte = false := by
    rw [(SeesAscii.endsWord nested).eq_of_isEncoded encoded, goesOn]
  have stop := wordEnd?_of_goesOn found byteGoesOn
  rw [isPlace.drop_eq, Lexeme.scanWord_encode] at stop
  obtain ⟨notBlank, notQuote, notDivider, notOpen, notClose⟩ :=
    Lexeme.endsWord_eq_false_iff.mp goesOn
  have notSlash : Symbol.is '/' c = false := by
    rw [Symbol.is_eq_false_iff]
    rintro rfl
    contradiction
  have notClosing : (nested && Symbol.is ')' c) = false := by
    simpa using notClose
  have isOpen : Symbol.is '(' c = false := by simpa using notOpen
  have split : IsPlace text place
      ((Lexeme.scanWord nested false (c :: rest)).1 ++
        (Lexeme.scanWord nested false (c :: rest)).2) := by
    rwa [Lexeme.scanWord_append]
  have reads := readAfterWord?_eq split
  simp only [readAt?, notBlank, notQuote, notSlash, notDivider, notClosing,
    isOpen, stop, split.cut?_eq, Bool.false_and, Bool.false_eq_true, if_false,
    Option.bind_eq_bind, Option.bind_some]
  rw [Lexeme.read_eq_readAfterWord goesOn]
  simp only [Lexeme.scanWord, goesOn, Bool.and_false, Bool.false_eq_true,
    if_false, Bool.not_false, Bool.true_and] at reads ⊢
  exact reads

theorem readAt?_of_blank (nested : Bool)
    (isPlace : IsPlace text place (c :: rest))
    (isBlank : Symbol.isBlank c = true) :
    readAt? text nested place c =
        some (.blank (c :: rest.takeWhile Symbol.isBlank),
          place + (encode (c :: rest.takeWhile Symbol.isBlank)).length) ∧
      IsPlace text (place + (encode (c :: rest.takeWhile Symbol.isBlank)).length)
        (rest.dropWhile Symbol.isBlank) := by
  have pieces : IsPlace text place
      ((c :: rest.takeWhile Symbol.isBlank) ++ rest.dropWhile Symbol.isBlank) := by
    rwa [List.cons_append, List.takeWhile_append_dropWhile]
  have stop := isPlace.skipBlanks_eq
  rw [List.takeWhile_cons_of_pos isBlank] at stop
  refine ⟨?_, pieces.advance⟩
  simp only [readAt?, isBlank, if_true, stop, pieces.cut?_eq]
  rfl

theorem readAt?_of_quote (nested : Bool)
    (isPlace : IsPlace text place (c :: rest))
    (isQuote : Symbol.isQuote c = true) :
    ∃ next, readAt? text nested place c =
        some (.quoted c (scanTo c false rest).content
          (scanTo c false rest).closed, next) ∧
      IsPlace text next (scanTo c false rest).rest := by
  have isRest := isPlace.advance_mark SeesAscii.isQuote isQuote
  have mark := Lexeme.quoteOf_eq isQuote
  obtain ⟨notBlank, notBackslash, ascii⟩ : Symbol.isBlank c = false ∧
      c ≠ '\\' ∧ c.toNat < 128 := by
    have marks := Bool.or_eq_true_iff.mp isQuote
    simp only [Symbol.is_eq_true_iff] at marks
    rcases marks with rfl | rfl <;> decide
  have free := isProtectedAt_succ_place isPlace notBackslash
  have ends := (scanTo_isDelimited c false rest).ends
  have search := firstUnprotected?_eq (ofText text) (place + 1) c
  rw [free, isRest.drop_eq, scanTo_encode ascii] at search
  rw [← scanTo_textWith c false rest] at isRest
  simp only [readAt?, notBlank, isQuote, if_true, Bool.false_eq_true, if_false,
    mark, search, isRest.closing?_getD ends, isRest.cut?_content,
    IsPlace.isSome_closing?]
  exact ⟨_, rfl, isRest.rest_min ascii ends⟩

theorem readAt?_of_comment (nested : Bool)
    (isPlace : IsPlace text place ('/' :: '*' :: rest)) :
    ∃ next, readAt? text nested place '/' =
        some (.comment (Lexeme.scanComment rest).content
          (Lexeme.scanComment rest).closed, next) ∧
      IsPlace text next (Lexeme.scanComment rest).rest := by
  have isSlash : SeesAscii (Symbol.is '/') (Symbol.is '/') := .is (by decide)
  have isStar : SeesAscii (Symbol.is '*') (Symbol.is '*') := .is (by decide)
  have isNext := isPlace.advance_mark isSlash rfl
  have isBody := isNext.advance_mark isStar rfl
  have ends := Lexeme.scanComment_ends rest
  have starts : (ofText text)[place + 1]?.any (Symbol.is '*') = true := by
    rw [isNext.getElem?_eq, isStar.any_head?_encode]
    rfl
  have search := commentEnd?_eq (ofText text) (place + 1 + 1)
  rw [isBody.drop_eq, Lexeme.scanComment_encode] at search
  rw [← Lexeme.scanComment_textWith rest] at isBody
  have notBlank : Symbol.isBlank '/' = false := rfl
  have notQuote : Symbol.isQuote '/' = false := rfl
  have isMark : Symbol.is '/' '/' = true := rfl
  simp only [readAt?, notBlank, notQuote, isMark, starts, Bool.true_and,
    Bool.false_eq_true, if_false, if_true, search,
    isBody.closing?_getD ends, isBody.cut?_content, IsPlace.isSome_closing?]
  exact ⟨_, rfl, isBody.rest_comment ends⟩

theorem startsComment_eq (isPlace : IsPlace text place (c :: rest)) :
    (Symbol.is '/' c && (ofText text)[place + 1]?.any (Symbol.is '*')) =
      (Symbol.is '/' c && rest.head?.any (Symbol.is '*')) := by
  cases isSlash : Symbol.is '/' c with
  | false => rfl
  | true =>
      have isNext := isPlace.advance_mark (.is (by decide)) isSlash
      have isStar : SeesAscii (Symbol.is '*') (Symbol.is '*') := .is (by decide)
      rw [isNext.getElem?_eq, isStar.any_head?_encode]

/-- A divider or a bracket. -/
theorem readAt?_of_mark {nested : Bool}
    (isPlace : IsPlace text place (c :: rest))
    (stops : Lexeme.endsWord nested c = true)
    (notBlank : Symbol.isBlank c = false) (notQuote : Symbol.isQuote c = false)
    (notComment :
      (Symbol.is '/' c && rest.head?.any (Symbol.is '*')) = false) :
    ∃ next, readAt? text nested place c =
        some ((Lexeme.read nested c rest).1, next) ∧
      IsPlace text next (Lexeme.read nested c rest).2 := by
  simp only [readAt?, Lexeme.read, notBlank, notQuote,
    startsComment_eq isPlace, notComment, Bool.false_eq_true, if_false]
  cases isDivider : Lexeme.dividerOf? c with
  | some kind =>
      have isMark : (Lexeme.dividerOf? c).isSome = true := by
        rw [isDivider]
        rfl
      exact ⟨_, rfl, isPlace.advance_mark .isSome_dividerOf? isMark⟩
  | none =>
      simp only
      split
      next isOpen =>
        have isMark : c = '(' := by simpa using isOpen
        have isInside := isPlace.advance_mark (.is (by decide)) isOpen
        subst c
        exact readOpening?_eq isInside
          (isProtectedAt_succ_place isPlace (by decide)) []
      next notOpen =>
      split
      next isClosing =>
        have marks := Bool.and_eq_true_iff.mp isClosing
        exact ⟨_, rfl, isPlace.advance_mark (.is (by decide)) marks.2⟩
      next notClosing =>
        simp [Lexeme.endsWord, notBlank, notQuote, isDivider, notOpen,
          notClosing] at stops

theorem read?_eq (nested : Bool) (isPlace : IsPlace text place (c :: rest)) :
    ∃ next, read? text nested place =
        some ((Lexeme.read nested c rest).1, next) ∧
      IsPlace text next (Lexeme.read nested c rest).2 := by
  rw [read?_eq_readAt? nested isPlace]
  cases goesOn : Lexeme.endsWord nested c with
  | false => exact readAt?_of_word isPlace goesOn
  | true =>
      cases isBlank : Symbol.isBlank c with
      | true =>
          rw [Lexeme.read, if_pos isBlank]
          exact ⟨_, readAt?_of_blank nested isPlace isBlank⟩
      | false =>
      cases isQuote : Symbol.isQuote c with
      | true =>
          simp only [Lexeme.read, isBlank, isQuote, Bool.false_eq_true,
            if_false, if_true, Lexeme.quoteOf_eq isQuote]
          exact readAt?_of_quote nested isPlace isQuote
      | false =>
      cases isComment : Symbol.is '/' c && rest.head?.any (Symbol.is '*') with
      | true =>
          simp only [Lexeme.read, isBlank, isQuote, isComment,
            Bool.false_eq_true, if_false, if_true]
          have marks := Bool.and_eq_true_iff.mp isComment
          have isSlash : c = '/' := by simpa using marks.1
          cases rest with
          | nil => simp at marks
          | cons next body =>
              have isStar : next = '*' := by simpa using marks.2
              subst c next
              exact readAt?_of_comment nested isPlace
      | false => exact readAt?_of_mark isPlace goesOn isBlank isQuote isComment

/-- A step ends after it starts, because a lexeme has a text. -/
theorem lt_of_read? {nested : Bool} {next : Nat}
    (isPlace : IsPlace text place (c :: rest))
    (isNext : IsPlace text next (Lexeme.read nested c rest).2) :
    place < next := by
  have isRead := Lexeme.isRead_read nested c rest
  have taken := List.length_pos_iff.mpr (encode_ne_nil isRead.fits.text_ne_nil)
  have total := isPlace.length_eq
  rw [isNext.length_eq, ← isRead.text_eq, encode_append, List.length_append]
    at total
  omega

end Step

/-! All steps. -/

theorem lex?_eq {text : String} {depth place : Nat} {rest : List Char}
    (isPlace : IsPlace text place rest) :
    lex? text depth place = some (Lexeme.lex depth rest) := by
  fun_induction Lexeme.lex depth rest generalizing place
  case case1 depth =>
    have atEnd : ¬ place < (ofText text).length := by
      rw [isPlace.length_eq, encode_nil, List.length_nil]
      omega
    rw [lex?, if_neg atEnd]
  case case2 depth c rest step ih =>
    obtain ⟨next, reads, isNext⟩ := read?_eq (0 < depth) isPlace
    have progress := lt_of_read? isPlace isNext
    have inside : place < (ofText text).length := by
      have bounded := isNext.length_eq
      omega
    have later := ih isNext
    rw [lex?, if_pos inside, reads]
    simp only [progress, if_true]
    rw [later]
    rfl

/-- Reading by bytes never fails. A cut is made only where both of its ends lie
between two characters, in order and inside the text; from every such place, at
any depth, a step makes all of its cuts, finds all of its bytes, and ends at a
later such place. The tree is the one that is read from the characters, where a
backslash protects a whole character. -/
theorem parse?_eq_parse (text : String) :
    (∀ start stop, (cut? text start stop).isSome = true ↔
      start ≤ stop ∧ stop ≤ text.utf8ByteSize ∧
        String.Pos.Raw.IsValid text ⟨start⟩ ∧
        String.Pos.Raw.IsValid text ⟨stop⟩) ∧
      (∀ nested place, String.Pos.Raw.IsValid text ⟨place⟩ →
        place < text.utf8ByteSize → ∃ lexeme next,
          read? text nested place = some (lexeme, next) ∧
            place < next ∧ next ≤ text.utf8ByteSize ∧
            String.Pos.Raw.IsValid text ⟨next⟩) ∧
      parse? text = some (parse text) := by
  have size : text.utf8ByteSize = (ofText text).length := by
    rw [utf8ByteSize_eq, ofText_eq]
  refine ⟨fun start stop => ?_, fun nested place isValid inside => ?_, ?_⟩
  · rw [isSome_cut?_iff, isCut_iff]
  · obtain ⟨rest, isPlace⟩ := exists_isPlace isValid
    cases rest with
    | nil =>
        rw [size, isPlace.length_eq, encode_nil, List.length_nil] at inside
        omega
    | cons c rest =>
        obtain ⟨next, reads, isNext⟩ := read?_eq nested isPlace
        exact ⟨_, next, reads, lt_of_read? isPlace isNext,
          isNext.isValid.le_utf8ByteSize, isNext.isValid⟩
  · have start : IsPlace text 0 text.toList := ⟨[], rfl, rfl⟩
    rw [parse?, lex?_eq start]
    rfl

theorem parse?_eq_parse_escaped :
    String.Pos.Raw.IsValid "ü \\é'ö" ⟨3⟩ ∧ 3 < "ü \\é'ö".utf8ByteSize ∧
      (∃ lexeme next, read? "ü \\é'ö" false 3 = some (lexeme, next) ∧
        3 < next ∧ next ≤ "ü \\é'ö".utf8ByteSize ∧
        String.Pos.Raw.IsValid "ü \\é'ö" ⟨next⟩) ∧
      parse? "ü \\é'ö" = some (parse "ü \\é'ö") := by
  have isValid : String.Pos.Raw.IsValid "ü \\é'ö" ⟨3⟩ := by decide +kernel
  have inside : 3 < "ü \\é'ö".utf8ByteSize := by decide +kernel
  have reads := parse?_eq_parse "ü \\é'ö"
  exact ⟨isValid, inside, reads.2.1 false 3 isValid inside, reads.2.2⟩

end Bytes

end StyleValue
