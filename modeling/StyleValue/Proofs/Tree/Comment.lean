import StyleValue.Proofs.Tree.Lossless
import StyleValue.Proofs.Tree.Presentation

/-! A comment with a blank next to it, taken out of its text. The lexemes around
it are read as before, except that blanks on both sides of it become one run,
and that blanks behind it go with an opening bracket in front of it. -/

namespace StyleValue

namespace Lexeme

def StartsBlank (text : List Char) : Prop :=
  ∃ c ∈ text.head?, Symbol.isBlank c = true

def EndsBlank (text : List Char) : Prop :=
  ∃ c ∈ text.getLast?, Symbol.isBlank c = true

/-- What the lexemes on both sides of a comment become without it. -/
inductive Joins : List (Lexeme Char) → List (Lexeme Char) →
    List (Lexeme Char) → Prop
  | apart {before after : List (Lexeme Char)} :
      Joins before after (before ++ after)
  | blanks {before after : List (Lexeme Char)} {gap further : List Char} :
      Joins (before ++ [.blank gap]) (.blank further :: after)
        (before ++ .blank (gap ++ further) :: after)
  | opening {before after : List (Lexeme Char)} {name gap further : List Char}
      (taken : takesBlank after = true) :
      Joins (before ++ [.opening name gap]) (.blank further :: after)
        (before ++ .opening name (gap ++ further) :: after)

namespace Joins

variable {before after joined : List (Lexeme Char)}

theorem flatMap_text (joins : Joins before after joined) :
    joined.flatMap text = (before ++ after).flatMap text := by
  cases joins with
  | apart => rfl
  | blanks => simp [text]
  | opening => simp [text]

theorem keptText_eq (joins : Joins before after joined) (body : List Char)
    (closed : Bool) :
    keptText joined = keptText (before ++ .comment body closed :: after) := by
  cases joins with
  | apart => simp [keptText, isComment]
  | blanks => simp [keptText, isComment, text]
  | opening => simp [keptText, isComment, text]

end Joins

/-! Reading the lexemes around a comment. -/

/-- Of what follows a lexeme, only the first symbol matters to it. -/
theorem Fits.of_head? {nested : Bool} {rest later : List Char}
    {lexeme : Lexeme Char} (fits : lexeme.Fits nested rest)
    (same : later.head? = rest.head?) : lexeme.Fits nested later := by
  have atEnd : rest = [] → later = [] := by
    rintro rfl
    exact List.head?_eq_none_iff.mp same
  cases fits with
  | blank nonempty blank stops => exact .blank nonempty blank (by rwa [same])
  | quoted isQuote delimited =>
      exact .quoted isQuote (delimited.withRest atEnd)
  | comment unended ends =>
      exact .comment unended fun unclosed => atEnd (ends unclosed)
  | divider notComment => exact .divider (by rwa [same])
  | opening named blank stops structured =>
      exact .opening named blank (by rwa [same]) (by rwa [same])
  | url named isUrl blankBefore blankAfter starts stops delimited =>
      exact .url named isUrl blankBefore blankAfter starts stops
        (delimited.withRest atEnd)
  | closing inside => exact .closing inside
  | word nonempty scan notCall =>
      exact .word nonempty ⟨scan.clear, by rw [same]; exact scan.stops⟩
        (by rwa [same])

theorem AllFit.replaceEnd {init first second : List (Lexeme Char)}
    (sameStart : (second.flatMap text).head? = (first.flatMap text).head?)
    (replaces : ∀ {depth : Nat}, AllFit depth first → AllFit depth second)
    {depth : Nat} (fit : AllFit depth (init ++ first)) :
    AllFit depth (init ++ second) := by
  induction init generalizing depth with
  | nil => exact replaces fit
  | cons lexeme rest ih =>
      refine ⟨fit.1.of_head? ?_, ih fit.2⟩
      change ((rest ++ second).flatMap text).head? =
        ((rest ++ first).flatMap text).head?
      simp only [List.flatMap_append, List.head?_append, sameStart]

theorem startsBlank_cons {c : Char} {text : List Char} :
    StartsBlank (c :: text) ↔ Symbol.isBlank c = true := by
  simp [StartsBlank]

theorem IsWordScan.not_startsBlank {nested : Bool} {word rest more : List Char}
    (scan : IsWordScan nested false word rest)
    (stays : word = [] → ¬ StartsBlank more) : ¬ StartsBlank (word ++ more) := by
  cases word with
  | nil => exact stays rfl
  | cons first word =>
      have notBlank :=
        not_blank_of_endsWord_eq_false (isWordScan_cons_iff.mp scan).1
      rw [List.cons_append, startsBlank_cons, notBlank]
      exact Bool.false_ne_true

/-- Only blanks start with a blank. -/
theorem Fits.eq_blank {nested : Bool} {rest : List Char} {lexeme : Lexeme Char}
    (fits : lexeme.Fits nested rest) {more : List Char}
    (starts : StartsBlank (lexeme.text ++ more)) :
    ∃ gap, lexeme = .blank gap := by
  have notBracket : ∀ text, ¬ StartsBlank ('(' :: text) := by
    intro text
    rw [startsBlank_cons]
    decide
  cases fits with
  | @blank gap => exact ⟨gap, rfl⟩
  | quoted isQuote =>
      rw [text, List.cons_append, List.cons_append, startsBlank_cons,
        (endsWord_of_quote nested isQuote).2.2.2] at starts
      contradiction
  | comment =>
      rw [text, List.cons_append, List.cons_append, startsBlank_cons] at starts
      contradiction
  | @divider kind =>
      rw [text, List.cons_append, startsBlank_cons,
        (endsWord_toChar nested kind).2.2.2] at starts
      contradiction
  | opening named =>
      rw [text, List.append_assoc] at starts
      exact absurd starts (named.not_startsBlank fun _ => notBracket _)
  | url named =>
      simp only [text, List.append_assoc] at starts
      exact absurd starts (named.not_startsBlank fun _ => notBracket _)
  | closing =>
      rw [text, List.cons_append, startsBlank_cons] at starts
      contradiction
  | word nonempty scan =>
      rw [text] at starts
      exact absurd starts
        (scan.not_startsBlank fun isEmpty => absurd isEmpty nonempty)

theorem AllFit.eq_blank {depth : Nat} {lexemes : List (Lexeme Char)}
    (fit : AllFit depth lexemes) (starts : StartsBlank (lexemes.flatMap text)) :
    ∃ gap rest, lexemes = .blank gap :: rest := by
  cases lexemes with
  | nil => obtain ⟨c, ⟨⟩, -⟩ := starts
  | cons lexeme rest =>
      rw [List.flatMap_cons] at starts
      obtain ⟨gap, rfl⟩ := fit.1.eq_blank starts
      exact ⟨gap, rest, rfl⟩

/-- Blanks that follow the lexeme are read with it. -/
def absorbsBlank : Lexeme Char → Bool
  | .blank _ => true
  | .opening _ _ => true
  | _ => false

/-- The end of the text did not cut the lexeme off. -/
def isWhole : Lexeme Char → Bool
  | .quoted _ _ closed => closed
  | .comment _ closed => closed
  | .url _ _ _ _ closed => closed
  | .word text => !endsInEscape false text
  | _ => true

theorem Fits.isWhole {nested : Bool} {rest : List Char} {lexeme : Lexeme Char}
    (fits : lexeme.Fits nested rest) (goesOn : rest ≠ []) :
    lexeme.isWhole = true := by
  cases fits with
  | blank | divider | opening | closing => rfl
  | @quoted quote value closed isQuote delimited =>
      cases closed with
      | true => rfl
      | false => exact absurd (delimited.ends rfl) goesOn
  | @comment body closed unended ends =>
      cases closed with
      | true => rfl
      | false => exact absurd (ends rfl) goesOn
  | @url name before address after closed _ _ _ _ _ _ delimited =>
      cases closed with
      | true => rfl
      | false => exact absurd (delimited.ends rfl) goesOn
  | word nonempty scan =>
      obtain ⟨next, more, rfl⟩ := List.exists_cons_of_ne_nil goesOn
      rw [Lexeme.isWhole, (scan.stops next rfl).1]
      rfl

/-- A whole lexeme is read the same way before any mark that ends a word. -/
theorem Fits.of_isWhole {nested : Bool} {rest later : List Char}
    {lexeme : Lexeme Char} (fits : lexeme.Fits nested rest)
    (whole : lexeme.isWhole = true) (apart : lexeme.absorbsBlank = false)
    (marks : ∀ c ∈ later.head?,
      endsWord nested c = true ∧ c ≠ '(' ∧ c ≠ '*') :
    lexeme.Fits nested later := by
  cases fits with
  | blank | opening => contradiction
  | quoted isQuote delimited =>
      rw [Lexeme.isWhole] at whole
      exact .quoted isQuote ⟨delimited.clear, delimited.closes, by simp [whole]⟩
  | comment unended ends =>
      rw [Lexeme.isWhole] at whole
      exact .comment unended (by simp [whole])
  | divider => exact .divider fun _ c isFirst => (marks c isFirst).2.2
  | url named isUrl blankBefore blankAfter starts stops delimited =>
      rw [Lexeme.isWhole] at whole
      exact .url named isUrl blankBefore blankAfter starts stops
        ⟨delimited.clear, delimited.closes, by simp [whole]⟩
  | closing inside => exact .closing inside
  | word nonempty scan =>
      rw [Lexeme.isWhole, Bool.not_eq_true'] at whole
      refine .word nonempty ⟨scan.clear, ?_⟩ ?_
      · intro c isFirst
        exact ⟨whole, (marks c isFirst).1⟩
      · intro c isFirst
        exact (marks c isFirst).2.1

theorem Fits.of_startsBlank {nested : Bool} {rest later : List Char}
    {lexeme : Lexeme Char} (fits : lexeme.Fits nested rest)
    (goesOn : rest ≠ []) (apart : lexeme.absorbsBlank = false)
    (starts : StartsBlank later) : lexeme.Fits nested later := by
  obtain ⟨mark, isHead, isBlank⟩ := starts
  refine fits.of_isWhole (fits.isWhole goesOn) apart ?_
  rw [Option.mem_def.mp isHead]
  rintro c ⟨⟩
  exact endsWord_of_blank nested isBlank

theorem not_endsBlank {text : List Char} {mark : Char}
    (isLast : [mark] <:+ text) (notBlank : Symbol.isBlank mark = false) :
    ¬ EndsBlank text := by
  obtain ⟨start, rfl⟩ := isLast
  rintro ⟨c, isEnd, isBlank⟩
  have same : mark = c := by simpa using isEnd
  rw [← same, notBlank] at isBlank
  contradiction

theorem Fits.not_endsBlank {nested : Bool} {rest : List Char}
    {lexeme : Lexeme Char} (fits : lexeme.Fits nested rest)
    (goesOn : rest ≠ []) (apart : lexeme.absorbsBlank = false)
    (notWord : ∀ word, lexeme ≠ .word word) : ¬ EndsBlank lexeme.text := by
  cases fits with
  | blank | opening => contradiction
  | word => exact absurd rfl (notWord _)
  | @quoted quote value closed isQuote delimited =>
      cases closed with
      | false => exact absurd (delimited.ends rfl) goesOn
      | true =>
          exact Lexeme.not_endsBlank (List.suffix_append (quote :: value) [quote])
            (endsWord_of_quote nested isQuote).2.2.2
  | @comment body closed _ ends =>
      cases closed with
      | false => exact absurd (ends rfl) goesOn
      | true =>
          have isLast : ['/'] <:+ text (.comment body true) :=
            ⟨'/' :: '*' :: body ++ ['*'], by simp [text]⟩
          exact Lexeme.not_endsBlank isLast rfl
  | @divider kind =>
      exact Lexeme.not_endsBlank List.suffix_rfl
        (endsWord_toChar nested kind).2.2.2
  | @url name before address after closed _ _ _ _ _ _ delimited =>
      cases closed with
      | false => exact absurd (delimited.ends rfl) goesOn
      | true =>
          have isLast : [')'] <:+ text (.url name before address after true) :=
            List.suffix_append _ _
          exact Lexeme.not_endsBlank isLast rfl
  | closing =>
      have isLast : [')'] <:+ text .closing := List.suffix_rfl
      exact Lexeme.not_endsBlank isLast rfl

/-! Taking the comment out. -/

section

variable {init after rest : List (Lexeme Char)}
  {body gap further name : List Char} {closed : Bool} {depth : Nat}

/-- A lexeme that goes with what follows the comment stays as it is. -/
theorem AllFit.apart {last : Lexeme Char}
    (fits : ∀ {nested : Bool} {rest : List Char},
      last.Fits nested ('/' :: rest) → last.Fits nested (after.flatMap text))
    (fit : AllFit depth (init ++ last :: .comment body closed :: after)) :
    AllFit depth (init ++ last :: after) := by
  obtain ⟨_, lastFits, -⟩ := fit.exists_of_append
  refine fit.replaceEnd ?_ ?_
  · rw [List.flatMap_cons, List.flatMap_cons,
      List.head?_append_of_ne_nil _ lastFits.text_ne_nil,
      List.head?_append_of_ne_nil _ lastFits.text_ne_nil]
  · rintro depth ⟨lastFits, -, afterFit⟩
    exact ⟨fits lastFits, afterFit⟩

theorem AllFit.joinBlanks
    (fit : AllFit depth (init ++ .blank gap :: .comment body closed ::
      .blank further :: rest)) :
    AllFit depth (init ++ .blank (gap ++ further) :: rest) := by
  refine fit.replaceEnd ?_ ?_
  · obtain ⟨_, lastFits, -⟩ := fit.exists_of_append
    have nonempty : gap ≠ [] := lastFits.text_ne_nil
    simp only [List.flatMap_cons, text, List.append_assoc,
      List.head?_append_of_ne_nil _ nonempty]
  · rintro depth ⟨fits, -, furtherFits, restFit⟩
    cases fits with
    | blank nonempty blank =>
        cases furtherFits with
        | blank _ furtherBlank stops =>
            exact ⟨.blank (by simp [nonempty]) (blank.append furtherBlank)
              stops, restFit⟩

/-- The call is not a `url`, or else the comment would be part of an address. -/
theorem Fits.opening_of_comment {nested : Bool} {start later : List Char}
    (fits : (Lexeme.opening name gap).Fits nested ('/' :: start))
    (blank : AllBlank further)
    (stops : ∀ c ∈ later.head?, Symbol.isBlank c = false) :
    (Lexeme.opening name (gap ++ further)).Fits nested later := by
  cases fits with
  | opening named before _ structured =>
      refine .opening named (before.append blank) stops ?_
      intro isUrl
      obtain ⟨c, isHead, isQuote⟩ := structured isUrl
      cases isHead
      contradiction

theorem AllFit.joinOpening
    (fit : AllFit depth (init ++ .opening name gap :: .comment body closed ::
      .blank further :: rest)) :
    AllFit depth (init ++ .opening name (gap ++ further) :: rest) := by
  refine fit.replaceEnd (by simp [text]) ?_
  rintro depth ⟨fits, -, furtherFits, restFit⟩
  cases furtherFits with
  | blank _ furtherBlank stops =>
      exact ⟨fits.opening_of_comment furtherBlank stops, restFit⟩

theorem AllFit.not_endsBlank {last : Lexeme Char}
    (fit : AllFit depth (init ++ last :: .comment body closed :: after))
    (apart : last.absorbsBlank = false) (notWord : ∀ word, last ≠ .word word) :
    ¬ EndsBlank ((init ++ [last]).flatMap text) := by
  obtain ⟨_, lastFits, -⟩ := fit.exists_of_append
  rintro ⟨c, isLast, isBlank⟩
  apply lastFits.not_endsBlank (List.cons_ne_nil _ _) apart notWord
  refine ⟨c, ?_, isBlank⟩
  rwa [List.flatMap_append, List.flatMap_singleton,
    List.getLast?_append_of_ne_nil _ lastFits.text_ne_nil] at isLast

/-- With a blank next to a comment, one that is neither protected in a word nor
the first thing in a call, what is left without the comment is read as what the
lexemes around it become. -/
theorem exists_joins {before : List (Lexeme Char)}
    (fit : AllFit depth (before ++ .comment body closed :: after))
    (beside : EndsBlank (before.flatMap text) ∨ StartsBlank (after.flatMap text))
    (afterWord : ∀ word, before.getLast? = some (.word word) →
      StartsBlank (after.flatMap text))
    (afterOpening : ∀ name gap, before.getLast? = some (.opening name gap) →
      ∀ further rest, after = .blank further :: rest → takesBlank rest = true) :
    ∃ joined, Joins before after joined ∧ AllFit depth joined := by
  rcases before.eq_nil_or_concat with rfl | ⟨init, last, rfl⟩
  · exact ⟨after, .apart, fit.2⟩
  rw [List.concat_eq_append] at *
  have lastEq : (init ++ [last]).getLast? = some last := List.getLast?_concat
  have split : AllFit depth
      (init ++ last :: .comment body closed :: after) := by simpa using fit
  -- Only a run of blanks or an opening can take in the blanks that follow.
  by_cases starts : StartsBlank (after.flatMap text)
  · obtain ⟨_, -, afterFit⟩ := fit.exists_of_append
    obtain ⟨further, rest, rfl⟩ := afterFit.eq_blank starts
    cases last with
    | blank gap => exact ⟨_, .blanks, split.joinBlanks⟩
    | opening name gap =>
        have taken := afterOpening name gap lastEq further rest rfl
        exact ⟨_, .opening taken, split.joinOpening⟩
    | quoted | comment | divider | url | closing | word =>
        have apart := split.apart fun fits =>
          fits.of_startsBlank (List.cons_ne_nil _ _) rfl starts
        exact ⟨_, .apart, by simpa using apart⟩
  -- Otherwise the blank is in front, so what is there is one of the two as well.
  · have ends := beside.resolve_right starts
    have stops : ∀ c ∈ (after.flatMap text).head?, Symbol.isBlank c = false := by
      intro c isHead
      exact Bool.eq_false_iff.mpr fun isBlank => starts ⟨c, isHead, isBlank⟩
    refine ⟨_, .apart, ?_⟩
    rw [List.append_assoc, List.singleton_append]
    cases last with
    | blank gap =>
        refine split.apart fun fits => ?_
        cases fits with
        | blank nonempty blank => exact .blank nonempty blank stops
    | opening name gap =>
        refine split.apart fun fits => ?_
        have grown : (Lexeme.opening name (gap ++ [])).Fits _ _ :=
          fits.opening_of_comment nofun stops
        rwa [List.append_nil] at grown
    | word word => exact absurd (afterWord word lastEq) starts
    | quoted | comment | divider | url | closing =>
        exact absurd ends (split.not_endsBlank rfl nofun)

end

end Lexeme

/-! The tree without the comment. -/

theorem Draft.addBlank_addBlank (draft : Draft) (gap further : String) :
    (draft.addBlank gap).addBlank further = draft.addBlank (gap ++ further) := by
  obtain ⟨nodes, calls⟩ := draft
  cases nodes with
  | nil => rfl
  | cons last earlier =>
      cases last with
      | divider | space => simp [Draft.addBlank, String.append_assoc]
      | word | quoted | call => rfl

theorem Lexeme.Joins.alike {before after joined : List (Lexeme Char)}
    (joins : Joins before after joined) {depth : Nat}
    (fit : AllFit depth joined) (draft : Draft) (body : List Char)
    (closed : Bool) :
    (joined.foldl Draft.add draft).Alike
      ((before ++ .comment body closed :: after).foldl Draft.add draft) := by
  cases joins with
  | apart =>
      simp only [List.foldl_append, List.foldl_cons, Draft.add]
      exact Draft.alike_refl _
  | blanks =>
      simp only [List.foldl_append, List.foldl_cons, List.foldl_nil, Draft.add,
        Draft.addBlank_addBlank, String.ofList_append]
      exact Draft.alike_refl _
  | @opening before after name gap further taken =>
      simp only [List.foldl_append, List.foldl_cons, List.foldl_nil]
      obtain ⟨_, -, afterFit⟩ := fit.exists_of_append
      generalize before.foldl Draft.add draft = outer
      have entered := (Draft.alike_refl outer).enter (String.ofList name)
        (String.ofList (gap ++ further)) (String.ofList gap)
      have inside := entered.inside_addBlank (String.ofList further)
      cases after with
      | nil => contradiction
      | cons next rest =>
          cases next with
          | divider kind =>
              rw [List.foldl_cons, List.foldl_cons]
              exact (inside.divide "" "" kind).addAll afterFit.2
          | closing =>
              have nested := Nat.zero_lt_succ outer.calls.length
              rw [List.foldl_cons, List.foldl_cons]
              exact (inside.leave nested "" "").addAll afterFit.2
          | blank | quoted | comment | opening | url | word => contradiction

section

variable {text : String} {before after : List (Lexeme Char)} {body : List Char}
  {closed : Bool}

/-- Without the comment the text has the same tree up to layout, and the tree
has the same text. -/
theorem parse_of_joins {joined : List (Lexeme Char)}
    (isLexed : Lexeme.lex 0 text.toList =
      before ++ .comment body closed :: after)
    (joins : Lexeme.Joins before after joined)
    (fit : Lexeme.AllFit 0 joined) :
    AllAlike .exact (parse text)
        (parse (String.ofList ((before ++ after).flatMap Lexeme.text))) ∧
      render (parse (String.ofList ((before ++ after).flatMap Lexeme.text))) =
        render (parse text) := by
  have isJoined : Lexeme.lex 0
      (String.ofList ((before ++ after).flatMap Lexeme.text)).toList =
        joined := by
    rw [String.toList_ofList, ← joins.flatMap_text]
    exact Lexeme.lex_flatMap_text fit
  constructor
  · have alike := parse_alike text
    have laterAlike := parse_alike
      (String.ofList ((before ++ after).flatMap Lexeme.text))
    rw [isLexed] at alike
    rw [isJoined] at laterAlike
    have joinedAlike := (joins.alike fit Draft.empty body closed).finish
    exact alike.trans (laterAlike.trans joinedAlike).symm
  · rw [← String.toList_inj, render_parse_toList, render_parse_toList, isLexed,
      isJoined, joins.keptText_eq body closed]

end

end StyleValue
