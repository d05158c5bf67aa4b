import StyleValue.Proofs.Tree.Canonical

/-! The text of a canonical tree is cut into the lexemes of the tree. -/

namespace StyleValue

open Lexeme

/-! The first symbol of an item, and what an item lets follow it. -/

def Node.StartsWith (c : Char) : Node → Prop
  | .word text => endsWord true c = false ∧ text.toList.head? = some c
  | .space _ => Symbol.isBlank c = true
  | .quoted _ _ _ => Symbol.isQuote c = true
  | .divider kind before _ =>
      if before = "" then c = kind.toChar else Symbol.isBlank c = true
  | .call name _ _ _ _ =>
      (name = "" ∧ c = '(') ∨
        (endsWord true c = false ∧ name.toList.head? = some c)

def Node.Allows (nested : Bool) (text : List Char) : Node → Prop
  | .word _ => ∀ c ∈ text.head?, endsWord nested c = true ∧ c ≠ '('
  | .space _ => ∀ c ∈ text.head?, Symbol.isBlank c = false
  | .divider kind _ after =>
      (after ≠ "" → ∀ c ∈ text.head?, Symbol.isBlank c = false) ∧
        (kind = .slash → after = "" → ∀ c ∈ text.head?, c ≠ '*')
  | .quoted _ _ _ => True
  | .call _ _ _ _ _ => True

theorem IsPlainText.head?_eq {text : String} (plain : IsPlainText text) :
    ∃ c, text.toList.head? = some c ∧ endsWord true c = false := by
  obtain ⟨nonempty, clear, -⟩ := plain
  cases symbols : text.toList with
  | nil => exact absurd (String.toList_eq_nil_iff.mp symbols) nonempty
  | cons c rest =>
      rw [symbols, hasUnprotected_cons_eq_false_iff] at clear
      exact ⟨c, rfl, clear.1 rfl⟩

theorem IsBlankText.head?_eq {text : String} (blank : IsBlankText text)
    (nonempty : text ≠ "") :
    ∃ c, text.toList.head? = some c ∧ Symbol.isBlank c = true := by
  cases symbols : text.toList with
  | nil => exact absurd (String.toList_eq_nil_iff.mp symbols) nonempty
  | cons c rest => exact ⟨c, rfl, blank c (by simp [symbols])⟩

theorem Node.head?_render {node : Node} (canonical : node.IsCanonical)
    (more : List Char) :
    ∃ c, (node.render.toList ++ more).head? = some c ∧ node.StartsWith c := by
  cases node with
  | word text =>
      obtain ⟨c, isHead, goesOn⟩ := IsPlainText.head?_eq canonical
      exact ⟨c, by simp [Node.render, isHead], goesOn, isHead⟩
  | space text =>
      obtain ⟨c, isHead, blank⟩ := IsBlankText.head?_eq canonical.2 canonical.1
      exact ⟨c, by simp [Node.render, isHead], blank⟩
  | quoted quote value closed =>
      refine ⟨quote, by simp [Node.render], ?_⟩
      rcases canonical.1 with rfl | rfl <;> rfl
  | divider kind before after =>
      by_cases isEmpty : before = ""
      · refine ⟨kind.toChar, by simp [Node.render, isEmpty], ?_⟩
        simp [Node.StartsWith, isEmpty]
      · obtain ⟨c, isHead, blank⟩ := IsBlankText.head?_eq canonical.1 isEmpty
        refine ⟨c, by simp [Node.render, isHead], ?_⟩
        simpa [Node.StartsWith, isEmpty] using blank
  | call name before args after closed =>
      rcases canonical.1 with isEmpty | plain
      · exact ⟨'(', by simp [Node.render, isEmpty], .inl ⟨isEmpty, rfl⟩⟩
      · obtain ⟨c, isHead, goesOn⟩ := plain.head?_eq
        exact ⟨c, by simp [Node.render, isHead], .inr ⟨goesOn, isHead⟩⟩

theorem Node.StartsWith.endsWord {node : Node} {c : Char}
    (starts : node.StartsWith c) (notWord : node.word? = none)
    (notCall : node.args? = none) (nested : Bool) :
    endsWord nested c = true ∧ c ≠ '(' := by
  cases node with
  | word | call => contradiction
  | space =>
      have marks := endsWord_of_blank nested starts
      exact ⟨marks.1, marks.2.1⟩
  | quoted =>
      have marks := endsWord_of_quote nested starts
      exact ⟨marks.1, marks.2.1⟩
  | divider kind before after =>
      simp only [Node.StartsWith] at starts
      split at starts
      · have marks := endsWord_toChar nested kind
        rw [starts]
        exact ⟨marks.1, marks.2.1⟩
      · have marks := endsWord_of_blank nested starts
        exact ⟨marks.1, marks.2.1⟩

theorem Node.StartsWith.not_blank {node : Node} {c : Char}
    (starts : node.StartsWith c) (opens : node.MayOpen) :
    Symbol.isBlank c = false := by
  cases node with
  | space => exact opens.elim
  | word => exact not_blank_of_endsWord_eq_false starts.1
  | quoted => exact (endsWord_of_quote true starts).2.2.2
  | divider kind before after =>
      have isEmpty : before = "" := opens
      rw [Node.StartsWith, if_pos isEmpty] at starts
      rw [starts]
      exact (endsWord_toChar true kind).2.2.2
  | call name before args after closed =>
      rcases starts with ⟨-, isOpen⟩ | ⟨goesOn, -⟩
      · rw [isOpen]
        decide
      · exact not_blank_of_endsWord_eq_false goesOn

theorem Node.StartsWith.ne_star {node : Node} {c : Char}
    (starts : node.StartsWith c) (noStar : node.startsWithStar = false) :
    c ≠ '*' := by
  cases node with
  | space => exact (endsWord_of_blank true starts).2.2
  | quoted => exact (endsWord_of_quote true starts).2.2.1
  | word text =>
      rintro rfl
      simp [Node.startsWithStar, starts.2] at noStar
  | divider kind before after =>
      simp only [Node.StartsWith] at starts
      split at starts
      · rw [starts]
        exact (endsWord_toChar true kind).2.2.1
      · exact (endsWord_of_blank true starts).2.2
  | call name before args after closed =>
      rintro rfl
      rcases starts with ⟨-, isOpen⟩ | ⟨-, isHead⟩
      · contradiction
      · simp [Node.startsWithStar, isHead] at noStar

theorem Node.allows_of_mayPrecede {node next : Node}
    (precedes : node.MayPrecede next) (canonical : next.IsCanonical)
    (nested : Bool) (more : List Char) :
    node.Allows nested (next.render.toList ++ more) := by
  obtain ⟨c, isHead, starts⟩ := next.head?_render canonical more
  have onlyHead : ∀ found ∈ (next.render.toList ++ more).head?, found = c := by
    intro found isFound
    rw [isHead] at isFound
    exact (Option.some.inj isFound).symm
  cases node with
  | quoted | call => trivial
  | word text =>
      intro found isFound
      rw [onlyHead found isFound]
      exact starts.endsWord precedes.1 precedes.2 nested
  | space text =>
      intro found isFound
      rw [onlyHead found isFound]
      apply starts.not_blank
      cases next with
      | space | divider => simp [MayPrecede, isSpace, isDivider] at precedes
      | word | quoted | call => trivial
  | divider kind before after =>
      obtain ⟨notSpace, noGap, noStar⟩ := precedes
      refine ⟨fun gap found isFound => ?_, fun isSlash noAfter found isFound => ?_⟩
      · rw [onlyHead found isFound]
        apply starts.not_blank
        cases next with
        | space => contradiction
        | divider => exact absurd (noGap rfl) gap
        | word | quoted | call => trivial
      · rw [onlyHead found isFound]
        exact starts.ne_star (noStar isSlash noAfter)

theorem Node.MayClose.allows {node : Node} (closes : node.MayClose)
    {after : String} (blank : IsBlankText after) (more : List Char) :
    node.Allows true (after.toList ++ ')' :: more) := by
  have isEnd : ∀ c ∈ (after.toList ++ ')' :: more).head?,
      endsWord true c = true ∧ c ≠ '(' ∧ c ≠ '*' := by
    intro c isHead
    by_cases isEmpty : after = ""
    · have isClosing : ')' = c := by simpa [isEmpty] using isHead
      rw [← isClosing]
      decide
    · obtain ⟨first, afterHead, firstBlank⟩ := blank.head?_eq isEmpty
      have isFirst : first = c := by simpa [afterHead] using isHead
      rw [← isFirst]
      exact endsWord_of_blank true firstBlank
  cases node with
  | space => exact closes.elim
  | quoted | call => trivial
  | word => exact fun c isHead => ⟨(isEnd c isHead).1, (isEnd c isHead).2.1⟩
  | divider kind before gap =>
      have noGap : gap = "" := closes
      exact ⟨fun isGap => absurd noGap isGap,
        fun _ _ c isHead => (isEnd c isHead).2.2⟩

/-! The lexemes of a canonical tree fit one another. -/

theorem endsWord_mono (nested : Bool) (c : Char)
    (ends : endsWord nested c = true) : endsWord true c = true := by
  cases nested with
  | true => exact ends
  | false =>
      cases closing : endsWord true c with
      | true => rfl
      | false =>
          rw [endsWord_eq_false_iff] at closing
          have goesOn : endsWord false c = false :=
            endsWord_eq_false_iff.mpr
              ⟨closing.1, closing.2.1, closing.2.2.1, closing.2.2.2.1, nofun⟩
          rw [ends] at goesOn
          contradiction

theorem IsPlainText.isWordScan {text : String} (plain : IsPlainText text)
    (nested : Bool) {rest : List Char}
    (stops : ∀ c ∈ rest.head?, endsWord nested c = true) :
    IsWordScan nested false text.toList rest := by
  obtain ⟨-, clear, closed⟩ := plain
  exact ⟨hasUnprotected_mono (endsWord_mono nested) clear,
    fun c isHead => ⟨closed, stops c isHead⟩⟩

theorem isWordScan_name {name : String} (named : name = "" ∨ IsPlainText name)
    (nested : Bool) : IsWordScan nested false name.toList ['('] := by
  rcases named with rfl | plain
  · exact isWordScan_nil nested
  · exact plain.isWordScan nested fun c isHead =>
      ((isWordScan_nil nested).stops c isHead).2

theorem allFit_blankLexemes {depth : Nat} {gap : String}
    {rest : List (Lexeme Char)} (blank : IsBlankText gap)
    (stops : gap ≠ "" →
      ∀ c ∈ (rest.flatMap text).head?, Symbol.isBlank c = false)
    (fit : AllFit depth rest) : AllFit depth (blankLexemes gap ++ rest) := by
  by_cases isEmpty : gap = ""
  · rwa [blankLexemes, if_pos isEmpty, List.nil_append]
  · rw [blankLexemes, if_neg isEmpty]
    have nonempty : gap.toList ≠ [] := by
      rwa [ne_eq, String.toList_eq_nil_iff]
    exact ⟨.blank nonempty blank (stops isEmpty), fit⟩

theorem endsInEscape_blank {escaped : Bool} {gap : List Char}
    (blank : AllBlank gap) :
    endsInEscape escaped gap = (escaped && gap.isEmpty) := by
  induction gap generalizing escaped with
  | nil => simp [endsInEscape]
  | cons c gap ih =>
      have notEscape : Symbol.is '\\' c = false := by
        rw [Symbol.is_eq_false_iff]
        rintro rfl
        exact absurd (blank '\\' (by simp)) (by decide)
      rw [endsInEscape, ih fun found member => blank found (by simp [member]),
        notEscape]
      simp

theorem hasUnprotected_blank {mark : Char}
    (notBlank : Symbol.isBlank mark = false) {escaped : Bool}
    {gap : List Char} (blank : AllBlank gap) :
    hasUnprotected (Symbol.is mark) escaped gap = false := by
  induction gap generalizing escaped with
  | nil => rfl
  | cons c gap ih =>
      rw [hasUnprotected_cons_eq_false_iff]
      refine ⟨fun _ => ?_, ih fun found member => blank found (by simp [member])⟩
      rw [Symbol.is_eq_false_iff]
      rintro rfl
      rw [blank c (by simp)] at notBlank
      contradiction

theorem IsAddress.fits {nested : Bool} {name before after : String}
    {args : List Node} (address : IsAddress after args)
    (named : IsWordScan nested false name.toList ['('])
    (isUrl : lowerCase name = "url") (blankBefore : IsBlankText before)
    (blankAfter : IsBlankText after) (rest : List Char) :
    Fits nested rest (.url name.toList before.toList (render args).toList
      after.toList true) := by
  have spelled := (spells_toList_iff "url" name).mpr isUrl
  cases args with
  | nil =>
      have noAfter : after = "" := address
      subst after
      rw [render]
      exact .url named spelled blankBefore blankAfter nofun nofun
        ⟨rfl, fun _ => rfl, nofun⟩
  | cons arg more =>
      cases more with
      | cons => cases arg <;> exact address.elim
      | nil =>
          cases arg with
          | space | quoted | divider | call => exact address.elim
          | word text =>
              obtain ⟨nonempty, starts, stops, clear, closed⟩ := address
              have spelledText : render [.word text] = text := by
                simp [render, Node.render]
              rw [spelledText]
              have isHead : (text.toList ++ after.toList).head? =
                  text.toList.head? := by
                cases symbols : text.toList with
                | nil =>
                    exact absurd (String.toList_eq_nil_iff.mp symbols) nonempty
                | cons => rfl
              refine .url named spelled blankBefore blankAfter ?_ stops
                ⟨?_, fun _ => ?_, nofun⟩
              · rwa [isHead]
              · rw [hasUnprotected_append, clear,
                  hasUnprotected_blank (by decide) blankAfter]
                rfl
              · rw [endsInEscape_append, endsInEscape_blank blankAfter]
                cases gap : after.toList with
                | cons => simp
                | nil =>
                    rw [closed (String.toList_eq_nil_iff.mp gap)]
                    rfl

theorem fits_opening {nested : Bool} {name before after : String}
    {args : List Node} (named : IsWordScan nested false name.toList ['('])
    (blankBefore : IsBlankText before) (notRaw : isRawCall name args = false)
    (canonical : AreCanonical args)
    (opens : ∀ first ∈ args.head?, first.MayOpen)
    (noArgs : args = [] → after = "") (rest : List Char) :
    Fits nested ((render args).toList ++ (after.toList ++ ')' :: rest))
      (.opening name.toList before.toList) := by
  cases args with
  | nil =>
      have noAfter := noArgs rfl
      subst after
      refine .opening named blankBefore ?_ ?_
      · intro c isHead
        have isClosing : ')' = c := by simpa [render] using isHead
        rw [← isClosing]
        decide
      · intro isUrl
        have isRaw : isRawCall name [] = true := by
          simp [isRawCall, (spells_toList_iff "url" name).mp isUrl]
        rw [isRaw] at notRaw
        contradiction
  | cons first more =>
      rw [render, String.toList_append, List.append_assoc]
      obtain ⟨c, isHead, starts⟩ := first.head?_render canonical.1
        ((render more).toList ++ (after.toList ++ ')' :: rest))
      refine .opening named blankBefore ?_ ?_
      · intro found isFound
        rw [isHead] at isFound
        cases isFound
        exact starts.not_blank (opens first rfl)
      · intro isUrl
        refine ⟨c, isHead, ?_⟩
        have isQuoted : first.isQuoted = true := by
          simpa [isRawCall, (spells_toList_iff "url" name).mp isUrl] using notRaw
        cases first with
        | quoted => exact starts
        | word | space | divider | call => contradiction

mutual

theorem Node.allFit_lexemes :
    (node : Node) → node.IsCanonical → {depth : Nat} →
      {rest : List (Lexeme Char)} →
      node.Allows (0 < depth) (rest.flatMap text) → AllFit depth rest →
      AllFit depth (node.lexemes ++ rest)
  | .word spelled, canonical, depth, rest, allows, fit => by
      have nonempty : spelled.toList ≠ [] := by
        rw [ne_eq, String.toList_eq_nil_iff]
        exact canonical.1
      refine ⟨.word nonempty ?_ fun c isHead => (allows c isHead).2, fit⟩
      exact canonical.isWordScan _ fun c isHead => (allows c isHead).1
  | .space gap, canonical, depth, rest, allows, fit => by
      have nonempty : gap.toList ≠ [] := by
        rw [ne_eq, String.toList_eq_nil_iff]
        exact canonical.1
      exact ⟨.blank nonempty canonical.2 allows, fit⟩
  | .quoted quote value closed, canonical, depth, rest, _, fit => by
      obtain ⟨isQuote, ⟨clear, free⟩, isClosed⟩ := canonical
      refine ⟨.quoted ?_ ⟨clear, fun _ => free, ?_⟩, fit⟩
      · rcases isQuote with rfl | rfl <;> rfl
      · intro unclosed
        rw [isClosed] at unclosed
        contradiction
  | .divider kind before after, canonical, depth, rest, allows, fit => by
      obtain ⟨blankBefore, blankAfter⟩ := canonical
      obtain ⟨noGap, noStar⟩ := allows
      have afterFit := allFit_blankLexemes blankAfter noGap fit
      have notComment : kind = .slash →
          ∀ c ∈ ((blankLexemes after ++ rest).flatMap text).head?, c ≠ '*' := by
        intro isSlash c isHead
        rw [List.flatMap_append, flatMap_text_blankLexemes] at isHead
        by_cases isEmpty : after = ""
        · subst after
          exact noStar isSlash rfl c (by simpa using isHead)
        · obtain ⟨first, afterHead, firstBlank⟩ := blankAfter.head?_eq isEmpty
          have isFirst : first = c := by simpa [afterHead] using isHead
          rw [← isFirst]
          exact (endsWord_of_blank true firstBlank).2.2
      have kindFit : AllFit depth (.divider kind :: (blankLexemes after ++ rest)) :=
        ⟨.divider notComment, afterFit⟩
      have stops : ∀ c ∈ ((Lexeme.divider kind ::
          (blankLexemes after ++ rest)).flatMap text).head?,
          Symbol.isBlank c = false := by
        intro c isHead
        cases isHead
        exact (endsWord_toChar true kind).2.2.2
      have whole := allFit_blankLexemes blankBefore (fun _ => stops) kindFit
      simpa [Node.lexemes] using whole
  | .call name before args after closed, canonical, depth, rest, _, fit => by
      obtain ⟨named, blankBefore, blankAfter, isClosed, inside⟩ := canonical
      subst closed
      have scan := isWordScan_name named (0 < depth)
      unfold Node.lexemes
      split at inside
      next isRaw =>
        have isUrl : lowerCase name = "url" := by
          simpa using (Bool.and_eq_true_iff.mp isRaw).1
        rw [if_pos isRaw]
        exact ⟨inside.fits scan isUrl blankBefore blankAfter _, fit⟩
      next notRaw =>
        obtain ⟨argsCanonical, opens, closes, noArgs⟩ := inside
        rw [if_neg notRaw]
        have closingFit : AllFit (depth + 1) (.closing :: rest) :=
          ⟨.closing (by simp), fit⟩
        have endFit : AllFit (depth + 1)
            (blankLexemes after ++ .closing :: rest) := by
          refine allFit_blankLexemes blankAfter (fun _ c isHead => ?_) closingFit
          cases isHead
          decide
        have endText : (blankLexemes after ++ .closing :: rest).flatMap text =
            after.toList ++ ')' :: rest.flatMap text := by
          rw [List.flatMap_append, flatMap_text_blankLexemes]
          rfl
        have argsFit := allFit_lexemesOf args argsCanonical
          (fun last isLast => by
            rw [endText]
            simpa using (closes last isLast).allows blankAfter _) endFit
        have argsText : (lexemesOf args ++
            (blankLexemes after ++ .closing :: rest)).flatMap text =
              (render args).toList ++ (after.toList ++ ')' :: rest.flatMap text) := by
          rw [List.flatMap_append, flatMap_text_lexemesOf args argsCanonical,
            endText]
        have opening := fits_opening scan blankBefore
          (Bool.eq_false_iff.mpr notRaw) argsCanonical opens noArgs
          (rest.flatMap text)
        rw [← argsText] at opening
        have whole : AllFit depth (.opening name.toList before.toList ::
            (lexemesOf args ++ (blankLexemes after ++ .closing :: rest))) :=
          ⟨opening, argsFit⟩
        simpa using whole

theorem allFit_lexemesOf :
    (nodes : List Node) → AreCanonical nodes → {depth : Nat} →
      {rest : List (Lexeme Char)} →
      (∀ last ∈ nodes.getLast?,
        last.Allows (0 < depth) (rest.flatMap text)) →
      AllFit depth rest → AllFit depth (lexemesOf nodes ++ rest)
  | [], _, depth, rest, _, fit => by simpa [lexemesOf] using fit
  | node :: more, canonical, depth, rest, allows, fit => by
      obtain ⟨nodeCanonical, precedes, moreCanonical⟩ := canonical
      rw [lexemesOf, List.append_assoc]
      cases more with
      | nil =>
          exact Node.allFit_lexemes node nodeCanonical
            (by simpa [lexemesOf] using allows node rfl)
            (by simpa [lexemesOf] using fit)
      | cons next more =>
          have moreFit := allFit_lexemesOf (next :: more) moreCanonical
            (fun last isLast => allows last (by simpa using isLast)) fit
          apply Node.allFit_lexemes node nodeCanonical _ moreFit
          rw [List.flatMap_append,
            flatMap_text_lexemesOf (next :: more) moreCanonical, render,
            String.toList_append, List.append_assoc]
          exact Node.allows_of_mayPrecede (precedes next rfl) moreCanonical.1 _ _

end

theorem lex_render {nodes : List Node} (canonical : AreCanonical nodes) :
    lex 0 (render nodes).toList = lexemesOf nodes := by
  have fit : AllFit 0 (lexemesOf nodes ++ []) :=
    allFit_lexemesOf nodes canonical
      (fun last _ => by cases last <;> simp [Node.Allows]) trivial
  rw [List.append_nil] at fit
  exact lex_eq_iff.mpr ⟨flatMap_text_lexemesOf nodes canonical, fit⟩

end StyleValue
