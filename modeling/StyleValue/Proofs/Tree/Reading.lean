import StyleValue.Proofs.Tree.Scanning

/-! One step of reading takes a lexeme off the text, and which lexeme it takes
is settled by what the lexeme is and by the symbols that follow it. -/

namespace StyleValue

namespace Lexeme

/-- What makes a lexeme the one that is read when `rest` follows it. -/
inductive Fits (nested : Bool) (rest : List Char) : Lexeme Char → Prop
  | blank {gap : List Char} (nonempty : gap ≠ []) (blank : AllBlank gap)
      (stops : ∀ c ∈ rest.head?, Symbol.isBlank c = false) :
      Fits nested rest (.blank gap)
  | quoted {quote : Char} {value : List Char} {closed : Bool}
      (isQuote : Symbol.isQuote quote = true)
      (delimited : IsDelimited quote false ⟨value, rest, closed⟩) :
      Fits nested rest (.quoted quote value closed)
  | comment {body : List Char} {closed : Bool}
      (unended : ¬ ['*', '/'] <:+: body) (ends : closed = false → rest = []) :
      Fits nested rest (.comment body closed)
  | divider {kind : Divider}
      (notComment : kind = .slash → ∀ c ∈ rest.head?, c ≠ '*') :
      Fits nested rest (.divider kind)
  | opening {name before : List Char}
      (named : IsWordScan nested false name ['(']) (blank : AllBlank before)
      (stops : ∀ c ∈ rest.head?, Symbol.isBlank c = false)
      (structured : Symbol.spells "url" name = true →
        ∃ c ∈ rest.head?, Symbol.isQuote c = true) :
      Fits nested rest (.opening name before)
  | url {name before address after : List Char} {closed : Bool}
      (named : IsWordScan nested false name ['('])
      (isUrl : Symbol.spells "url" name = true)
      (blankBefore : AllBlank before) (blankAfter : AllBlank after)
      (starts : ∀ c ∈ (address ++ after).head?,
        Symbol.isBlank c = false ∧ Symbol.isQuote c = false)
      (stops : ∀ c ∈ address.getLast?, Symbol.isBlank c = false)
      (delimited : IsDelimited ')' false ⟨address ++ after, rest, closed⟩) :
      Fits nested rest (.url name before address after closed)
  | closing (inside : nested = true) : Fits nested rest .closing
  | word {text : List Char} (nonempty : text ≠ [])
      (scan : IsWordScan nested false text rest)
      (notCall : ∀ c ∈ rest.head?, c ≠ '(') :
      Fits nested rest (.word text)

/-- A lexeme that the text starts with, and what follows it. -/
structure IsRead (nested : Bool) (text : List Char)
    (step : Lexeme Char × List Char) : Prop where
  text_eq : step.1.text ++ step.2 = text
  fits : step.1.Fits nested step.2

theorem Fits.text_ne_nil {nested : Bool} {rest : List Char}
    {lexeme : Lexeme Char} (fits : lexeme.Fits nested rest) :
    lexeme.text ≠ [] := by
  cases fits with
  | blank nonempty => exact nonempty
  | word nonempty => exact nonempty
  | quoted | comment | divider | opening | url | closing => simp [text]

/-! Reading a call's opening. -/

theorem isRead_readOpening {nested : Bool} {name : List Char}
    (named : IsWordScan nested false name ['(']) (text : List Char) :
    IsRead nested (name ++ '(' :: text) (readOpening name text) := by
  have whole : text.takeWhile Symbol.isBlank ++ text.dropWhile Symbol.isBlank =
      text := List.takeWhile_append_dropWhile
  have stops := isBlank_head?_dropWhile text
  have blank := allBlank_takeWhile text
  simp only [readOpening]
  generalize text.takeWhile Symbol.isBlank = before at whole blank ⊢
  generalize text.dropWhile Symbol.isBlank = inside at whole stops ⊢
  subst text
  split
  next isRaw =>
    have conditions := Bool.and_eq_true_iff.mp isRaw
    have scanned := scanTo_textWith ')' false inside
    have delimited := scanTo_isDelimited ')' false inside
    constructor
    · calc
        _ = name ++ '(' :: (before ++ (scanTo ')' false inside).textWith [')']) := by
          simp only [text, Delimited.textWith, List.append_assoc,
            List.cons_append]
          rw [← List.append_assoc (dropBlankEnd _),
            dropBlankEnd_append_blankEnd]
        _ = _ := by rw [scanned]
    · refine .url named conditions.1 blank (allBlank_blankEnd _) ?_
        (isBlank_getLast?_dropBlankEnd _) ?_
      · rw [dropBlankEnd_append_blankEnd]
        intro c isHead
        have insideHead : inside.head? = some c := by
          rw [← scanned, Delimited.textWith, List.append_assoc,
            List.head?_append, Option.mem_def.mp isHead]
          rfl
        exact ⟨stops c insideHead, by simpa [insideHead] using conditions.2⟩
      · rw [dropBlankEnd_append_blankEnd]
        exact delimited
  next notRaw =>
    refine ⟨by simp [text], .opening named blank stops ?_⟩
    intro isUrl
    cases inside with
    | nil => simp [isUrl] at notRaw
    | cons next rest => exact ⟨next, rfl, by simpa [isUrl] using notRaw⟩

theorem readOpening_of_opening {nested : Bool} {name before rest : List Char}
    (fits : Fits nested rest (.opening name before)) :
    readOpening name (before ++ rest) = (.opening name before, rest) := by
  cases fits with
  | opening named blank stops structured =>
      simp only [readOpening, takeWhile_blank_append blank stops,
        dropWhile_blank_append blank stops]
      split
      next isRaw =>
        have conditions := Bool.and_eq_true_iff.mp isRaw
        obtain ⟨c, isHead, isQuote⟩ := structured conditions.1
        simp [Option.mem_def.mp isHead, isQuote] at conditions
      next => rfl

theorem readOpening_of_url {nested closed : Bool}
    {name before address after rest : List Char}
    (fits : Fits nested rest (.url name before address after closed)) :
    readOpening name (before ++ Delimited.textWith [')']
        ⟨address ++ after, rest, closed⟩) =
      (.url name before address after closed, rest) := by
  cases fits with
  | url named isUrl blankBefore blankAfter starts stops delimited =>
      have scanned := scanTo_of_isDelimited delimited
      have insideStarts : ∀ c ∈ (Delimited.textWith [')']
          ⟨address ++ after, rest, closed⟩).head?,
          Symbol.isBlank c = false ∧ Symbol.isQuote c = false := by
        intro c isHead
        cases content : address ++ after with
        | cons first more =>
            rw [content] at starts isHead
            exact starts c isHead
        | nil =>
            cases closed with
            | true =>
                have headEq : ')' = c := by
                  simpa [Delimited.textWith, content] using isHead
                rw [← headEq]
                decide
            | false =>
                have atEnd : rest = [] := delimited.ends rfl
                simp [Delimited.textWith, content, atEnd] at isHead
      generalize Delimited.textWith [')'] ⟨address ++ after, rest, closed⟩ =
        inside at scanned insideStarts ⊢
      have notBlank : ∀ c ∈ inside.head?, Symbol.isBlank c = false :=
        fun c isHead => (insideStarts c isHead).1
      have notQuote : inside.head?.any Symbol.isQuote = false := by
        cases inside with
        | nil => rfl
        | cons next rest => exact (insideStarts next rfl).2
      simp only [readOpening, takeWhile_blank_append blankBefore notBlank,
        dropWhile_blank_append blankBefore notBlank, isUrl, notQuote, scanned,
        Bool.not_false, Bool.and_self, if_true,
        dropBlankEnd_append blankAfter stops, blankEnd_append blankAfter stops]

/-! Reading one lexeme. -/

theorem dividerOf?_eq_some_iff {c : Char} {kind : Divider} :
    dividerOf? c = some kind ↔ c = kind.toChar := by
  simp only [dividerOf?, Symbol.is_eq_true_iff]
  split
  next isComma => subst c; cases kind <;> decide
  next notComma =>
    split
    next isSlash => subst c; cases kind <;> decide
    next notSlash =>
      split
      next isColon => subst c; cases kind <;> decide
      next notColon => cases kind <;> simpa [Divider.toChar]

theorem endsWord_eq_false_iff {nested : Bool} {c : Char} :
    endsWord nested c = false ↔
      Symbol.isBlank c = false ∧ Symbol.isQuote c = false ∧
        dividerOf? c = none ∧ c ≠ '(' ∧ (nested = true → c ≠ ')') := by
  simp only [endsWord, Bool.or_eq_false_iff, Bool.and_eq_false_imp,
    Option.isSome_eq_false_iff, Option.isNone_iff_eq_none,
    Symbol.is_eq_false_iff, and_assoc]

theorem not_blank_of_endsWord_eq_false {nested : Bool} {c : Char}
    (goesOn : endsWord nested c = false) : Symbol.isBlank c = false :=
  (endsWord_eq_false_iff.mp goesOn).1

theorem endsWord_of_blank (nested : Bool) {c : Char}
    (blank : Symbol.isBlank c = true) :
    endsWord nested c = true ∧ c ≠ '(' ∧ c ≠ '*' := by
  refine ⟨by simp [endsWord, blank], ?_, ?_⟩
  · rintro rfl
    contradiction
  · rintro rfl
    contradiction

theorem endsWord_of_quote (nested : Bool) {c : Char}
    (isQuote : Symbol.isQuote c = true) :
    endsWord nested c = true ∧ c ≠ '(' ∧ c ≠ '*' ∧
      Symbol.isBlank c = false := by
  have marks := Bool.or_eq_true_iff.mp isQuote
  simp only [Symbol.is_eq_true_iff] at marks
  rcases marks with rfl | rfl <;> cases nested <;> decide

theorem endsWord_toChar (nested : Bool) (kind : Divider) :
    endsWord nested kind.toChar = true ∧ kind.toChar ≠ '(' ∧
      kind.toChar ≠ '*' ∧ Symbol.isBlank kind.toChar = false := by
  cases kind <;> cases nested <;> decide

def readAfterWord (word : List Char) : List Char → Lexeme Char × List Char
  | [] => (.word word, [])
  | next :: inside =>
      if Symbol.is '(' next then readOpening word inside
      else (.word word, next :: inside)

theorem read_eq_readAfterWord {nested : Bool} {symbol : Char}
    (goesOn : endsWord nested symbol = false) (rest : List Char) :
    read nested symbol rest =
      readAfterWord
        (symbol :: (scanWord nested (Symbol.is '\\' symbol) rest).1)
        (scanWord nested (Symbol.is '\\' symbol) rest).2 := by
  obtain ⟨notBlank, notQuote, notDivider, notOpen, notClose⟩ :=
    endsWord_eq_false_iff.mp goesOn
  have notSlash : Symbol.is '/' symbol = false := by
    rw [Symbol.is_eq_false_iff]
    rintro rfl
    contradiction
  have notClosing : (nested && Symbol.is ')' symbol) = false := by
    simpa using notClose
  simp only [read, notBlank, notQuote, notSlash, notDivider, notClosing,
    Symbol.is_eq_true_iff, notOpen, Bool.false_and, Bool.false_eq_true,
    if_false]
  cases (scanWord nested (Symbol.is '\\' symbol) rest).2 with
  | nil => rfl
  | cons next inside => simp only [readAfterWord, Symbol.is_eq_true_iff]

theorem isRead_readAfterWord {nested : Bool} {word rest : List Char}
    (nonempty : word ≠ []) (scan : IsWordScan nested false word rest) :
    IsRead nested (word ++ rest) (readAfterWord word rest) := by
  cases rest with
  | nil => exact ⟨rfl, .word nonempty scan nofun⟩
  | cons next inside =>
      simp only [readAfterWord, Symbol.is_eq_true_iff]
      split
      next isOpen =>
        subst next
        exact isRead_readOpening ⟨scan.clear, scan.stops⟩ inside
      next notCall =>
        refine ⟨rfl, .word nonempty scan ?_⟩
        intro c isHead
        cases isHead
        exact notCall

theorem isRead_word {nested : Bool} {symbol : Char}
    (goesOn : endsWord nested symbol = false) (rest : List Char) :
    IsRead nested (symbol :: rest) (read nested symbol rest) := by
  have whole := scanWord_append nested (Symbol.is '\\' symbol) rest
  have scan := isWordScan_cons_iff.mpr
    ⟨goesOn, scanWord_isWordScan nested (Symbol.is '\\' symbol) rest⟩
  have isRead := isRead_readAfterWord (by simp) scan
  rwa [← read_eq_readAfterWord goesOn rest, List.cons_append, whole] at isRead

theorem read_of_isWordScan {nested : Bool} {symbol : Char}
    {word rest : List Char}
    (scan : IsWordScan nested false (symbol :: word) rest) :
    read nested symbol (word ++ rest) =
      readAfterWord (symbol :: word) rest := by
  obtain ⟨goesOn, tailScan⟩ := isWordScan_cons_iff.mp scan
  rw [read_eq_readAfterWord goesOn, scanWord_of_isWordScan tailScan]

theorem quoteOf_eq {symbol : Char} (isQuote : Symbol.isQuote symbol = true) :
    (if Symbol.is '"' symbol = true then '"' else '\'') = symbol := by
  simp only [Symbol.is_eq_true_iff]
  split
  next isDouble => exact isDouble.symm
  next notDouble =>
    have marks := Bool.or_eq_true_iff.mp isQuote
    simp only [Symbol.is_eq_true_iff] at marks
    exact (marks.resolve_right notDouble).symm

theorem isWordScan_nil (nested : Bool) : IsWordScan nested false [] ['('] := by
  refine ⟨rfl, ?_⟩
  intro c isHead
  cases isHead
  exact ⟨rfl, by cases nested <;> decide⟩

theorem isRead_read (nested : Bool) (symbol : Char) (rest : List Char) :
    IsRead nested (symbol :: rest) (read nested symbol rest) := by
  cases goesOn : endsWord nested symbol with
  | false => exact isRead_word goesOn rest
  | true =>
      simp only [read]
      split
      next isBlank =>
        refine ⟨by simp [text], .blank (by simp) ?_ (isBlank_head?_dropWhile rest)⟩
        intro c member
        rcases List.mem_cons.mp member with rfl | inRun
        · exact isBlank
        · exact allBlank_takeWhile rest c inRun
      next notBlank =>
      split
      next isQuote =>
        rw [quoteOf_eq isQuote]
        refine ⟨?_, .quoted isQuote (scanTo_isDelimited symbol false rest)⟩
        exact congrArg (symbol :: ·) (scanTo_textWith symbol false rest)
      next notQuote =>
      split
      next isComment =>
        have marks := Bool.and_eq_true_iff.mp isComment
        have isSlash : symbol = '/' := by simpa using marks.1
        cases rest with
        | nil => simp at marks
        | cons next body =>
            have isStar : next = '*' := by simpa using marks.2
            subst symbol next
            refine ⟨?_, .comment (not_commentEnd_scanComment_content body)
              (scanComment_ends body)⟩
            exact congrArg ('/' :: '*' :: ·) (scanComment_textWith body)
      next notComment =>
      split
      next kind isDivider =>
        have isMark := dividerOf?_eq_some_iff.mp isDivider
        refine ⟨by simp [text, isMark], .divider ?_⟩
        intro isSlash c isHead isStar
        apply notComment
        simp [isMark, isSlash, Option.mem_def.mp isHead, isStar, Divider.toChar]
      next notDivider =>
      split
      next isOpen =>
        have isMark : symbol = '(' := by simpa using isOpen
        subst symbol
        exact isRead_readOpening (isWordScan_nil nested) rest
      next notOpen =>
      split
      next isClosing =>
        have marks := Bool.and_eq_true_iff.mp isClosing
        have isMark : symbol = ')' := by simpa using marks.2
        exact ⟨by simp [text, isMark], .closing marks.1⟩
      next notClosing =>
        simp [endsWord, notBlank, notQuote, notDivider, notOpen, notClosing]
          at goesOn

/-- The opening of a call is read as far as its bracket; the rest of it is
what `readOpening` makes of the text inside. -/
theorem read_of_name {nested : Bool} {name text : List Char} {symbol : Char}
    {rest : List Char} (named : IsWordScan nested false name ['('])
    (whole : name ++ '(' :: text = symbol :: rest) :
    read nested symbol rest = readOpening name text := by
  cases name with
  | nil =>
      obtain ⟨rfl, rfl⟩ := List.cons.inj whole
      rfl
  | cons first name =>
      simp only [List.cons_append, List.cons.injEq] at whole
      obtain ⟨rfl, rfl⟩ := whole
      have scan : IsWordScan nested false (first :: name) ('(' :: text) :=
        ⟨named.clear, named.stops⟩
      rw [read_of_isWordScan scan]
      rfl

theorem read_of_blank {nested : Bool} {symbol : Char} {gap rest : List Char}
    (blank : AllBlank (symbol :: gap))
    (stops : ∀ c ∈ rest.head?, Symbol.isBlank c = false) :
    read nested symbol (gap ++ rest) = (.blank (symbol :: gap), rest) := by
  have isBlank := blank symbol (by simp)
  have blankTail : AllBlank gap := fun c member => blank c (by simp [member])
  simp only [read, isBlank, if_true, takeWhile_blank_append blankTail stops,
    dropWhile_blank_append blankTail stops]

theorem read_of_quote {nested : Bool} {quote : Char}
    {scanned : Delimited Char} (isQuote : Symbol.isQuote quote = true)
    (delimited : IsDelimited quote false scanned) :
    read nested quote (scanned.textWith [quote]) =
      (.quoted quote scanned.content scanned.closed, scanned.rest) := by
  have notBlank : Symbol.isBlank quote = false := by
    have marks := Bool.or_eq_true_iff.mp isQuote
    simp only [Symbol.is_eq_true_iff] at marks
    rcases marks with rfl | rfl <;> rfl
  simp only [read, notBlank, isQuote, Bool.false_eq_true, if_false, if_true]
  rw [quoteOf_eq isQuote, scanTo_of_isDelimited delimited]

theorem read_of_comment {nested : Bool} {scanned : Delimited Char}
    (unended : ¬ ['*', '/'] <:+: scanned.content)
    (ends : scanned.closed = false → scanned.rest = []) :
    read nested '/' ('*' :: scanned.textWith ['*', '/']) =
      (.comment scanned.content scanned.closed, scanned.rest) := by
  have scan := scanComment_of_ends unended ends
  change (Lexeme.comment
    (scanComment (scanned.textWith ['*', '/'])).content
    (scanComment (scanned.textWith ['*', '/'])).closed,
    (scanComment (scanned.textWith ['*', '/'])).rest) = _
  rw [scan]

theorem read_of_divider {nested : Bool} {kind : Divider} {rest : List Char}
    (notComment : kind = .slash → ∀ c ∈ rest.head?, c ≠ '*') :
    read nested kind.toChar rest = (.divider kind, rest) := by
  cases kind with
  | comma => rfl
  | colon => rfl
  | slash =>
      cases rest with
      | nil => rfl
      | cons next rest =>
          have notStar : Symbol.is '*' next = false := by
            simpa using notComment rfl next rfl
          change (if Symbol.is '*' next = true then _ else _) = _
          rw [notStar]
          rfl

/-- A lexeme that fits what follows it is the one that is read. -/
theorem read_of_fits {nested : Bool} {lexeme : Lexeme Char}
    {rest text : List Char} {symbol : Char} (fits : lexeme.Fits nested rest)
    (whole : lexeme.text ++ rest = symbol :: text) :
    read nested symbol text = (lexeme, rest) := by
  cases lexeme with
  | blank gap =>
      cases fits with
      | blank nonempty blank stops =>
          cases gap with
          | nil => contradiction
          | cons first gap =>
              simp only [Lexeme.text, List.cons_append, List.cons.injEq] at whole
              obtain ⟨rfl, rfl⟩ := whole
              exact read_of_blank blank stops
  | quoted quote value closed =>
      cases fits with
      | quoted isQuote delimited =>
          simp only [Lexeme.text, List.cons_append, List.cons.injEq] at whole
          obtain ⟨rfl, rfl⟩ := whole
          exact read_of_quote isQuote delimited
  | comment body closed =>
      cases fits with
      | comment unended ends =>
          simp only [Lexeme.text, List.cons_append, List.cons.injEq] at whole
          obtain ⟨rfl, rfl⟩ := whole
          let scanned : Delimited Char := ⟨body, rest, closed⟩
          have stays : ¬ ['*', '/'] <:+: scanned.content := unended
          exact read_of_comment stays ends
  | divider kind =>
      cases fits with
      | divider notComment =>
          simp only [Lexeme.text, List.cons_append, List.nil_append,
            List.cons.injEq] at whole
          obtain ⟨rfl, rfl⟩ := whole
          exact read_of_divider notComment
  | opening name before =>
      have opens := readOpening_of_opening fits
      cases fits with
      | opening named blank stops structured =>
          rw [read_of_name named (by simpa [Lexeme.text] using whole), opens]
  | url name before address after closed =>
      have opens := readOpening_of_url fits
      cases fits with
      | url named isUrl blankBefore blankAfter starts stops delimited =>
          have spelled : name ++ '(' :: (before ++ Delimited.textWith [')']
              ⟨address ++ after, rest, closed⟩) = symbol :: text := by
            simpa [Lexeme.text, Delimited.textWith] using whole
          rw [read_of_name named spelled, opens]
  | closing =>
      cases fits with
      | closing inside =>
          simp only [Lexeme.text, List.cons_append, List.nil_append,
            List.cons.injEq] at whole
          obtain ⟨rfl, rfl⟩ := whole
          subst nested
          rfl
  | word word =>
      cases fits with
      | word nonempty scan notCall =>
          cases word with
          | nil => contradiction
          | cons first word =>
              simp only [Lexeme.text, List.cons_append, List.cons.injEq] at whole
              obtain ⟨rfl, rfl⟩ := whole
              rw [read_of_isWordScan scan]
              cases rest with
              | nil => rfl
              | cons next inside =>
                  have notOpen : Symbol.is '(' next = false := by
                    simpa using notCall next rfl
                  simp [readAfterWord, notOpen]

/-! Reading a whole text. -/

/-- Each lexeme fits the text that the later ones make up. -/
def AllFit (depth : Nat) : List (Lexeme Char) → Prop
  | [] => True
  | lexeme :: rest =>
      lexeme.Fits (0 < depth) (rest.flatMap text) ∧
        AllFit (lexeme.depthAfter depth) rest

theorem AllFit.eq_nil {depth : Nat} {lexemes : List (Lexeme Char)}
    (fit : AllFit depth lexemes) (atEnd : lexemes.flatMap text = []) :
    lexemes = [] := by
  cases lexemes with
  | nil => rfl
  | cons lexeme rest =>
      rw [List.flatMap_cons, List.append_eq_nil_iff] at atEnd
      exact absurd atEnd.1 fit.1.text_ne_nil

theorem AllFit.exists_of_append {init rest : List (Lexeme Char)} {depth : Nat}
    (fit : AllFit depth (init ++ rest)) : ∃ depth, AllFit depth rest := by
  induction init generalizing depth with
  | nil => exact ⟨depth, fit⟩
  | cons lexeme init ih => exact ih fit.2

theorem flatMap_text_lex (depth : Nat) (input : List Char) :
    (lex depth input).flatMap text = input := by
  fun_induction lex depth input with
  | case1 => rfl
  | case2 depth symbol rest step ih =>
      rw [List.flatMap_cons, ih]
      exact (isRead_read (0 < depth) symbol rest).text_eq

theorem allFit_lex (depth : Nat) (input : List Char) :
    AllFit depth (lex depth input) := by
  fun_induction lex depth input with
  | case1 => trivial
  | case2 depth symbol rest step ih =>
      refine ⟨?_, ih⟩
      rw [flatMap_text_lex]
      exact (isRead_read (0 < depth) symbol rest).fits

theorem lex_flatMap_text {depth : Nat} {lexemes : List (Lexeme Char)}
    (fit : AllFit depth lexemes) :
    lex depth (lexemes.flatMap text) = lexemes := by
  induction lexemes generalizing depth with
  | nil => rw [List.flatMap_nil, lex]
  | cons lexeme rest ih =>
      obtain ⟨fits, restFit⟩ := fit
      cases whole : (lexeme :: rest).flatMap text with
      | nil =>
          rw [List.flatMap_cons, List.append_eq_nil_iff] at whole
          exact absurd whole.1 fits.text_ne_nil
      | cons symbol input =>
          rw [List.flatMap_cons] at whole
          rw [lex, read_of_fits fits whole, ih restFit]

/-- There is one way to cut a text into lexemes that fit, and it is found. -/
theorem lex_eq_iff {depth : Nat} {input : List Char}
    {lexemes : List (Lexeme Char)} :
    lex depth input = lexemes ↔
      lexemes.flatMap text = input ∧ AllFit depth lexemes := by
  constructor
  · rintro rfl
    exact ⟨flatMap_text_lex depth input, allFit_lex depth input⟩
  · rintro ⟨rfl, fit⟩
    exact lex_flatMap_text fit

end Lexeme

end StyleValue
