import StyleValue.Proofs.Text.LetterCase
import StyleValue.Proofs.Tree.NormalForm
import StyleValue.Tree.Node

/-! Trees that say how they are to be written: in each place where the text
could be read in two ways, a canonical tree holds the way it is read. -/

namespace StyleValue

/-- A text that is one word wherever it stands: none of its marks is
unprotected, and it protects nothing beyond its end. -/
def IsPlainText (text : String) : Prop :=
  text ≠ "" ∧
    hasUnprotected (Lexeme.endsWord true) false text.toList = false ∧
    endsInEscape false text.toList = false

def IsQuotable (quote : Char) (text : String) : Prop :=
  hasUnprotected (Symbol.is quote) false text.toList = false ∧
    endsInEscape false text.toList = false

instance (text : String) : Decidable (IsPlainText text) :=
  inferInstanceAs (Decidable (_ ∧ _ ∧ _))

instance (quote : Char) (text : String) : Decidable (IsQuotable quote text) :=
  inferInstanceAs (Decidable (_ ∧ _))

/-- A call whose inside is not structure: an address without quotes. -/
def isRawCall (name : String) (args : List Node) : Bool :=
  lowerCase name == "url" && !args.head?.any Node.isQuoted

/-- The inside of a raw call is at most one word, to which the marks of other
words mean nothing. The blanks around it are not a part of it, and its end
protects no closing bracket. -/
def IsAddress (after : String) : List Node → Prop
  | [] => after = ""
  | [.word text] =>
      text ≠ "" ∧
        (∀ c ∈ text.toList.head?,
          Symbol.isBlank c = false ∧ Symbol.isQuote c = false) ∧
        (∀ c ∈ text.toList.getLast?, Symbol.isBlank c = false) ∧
        hasUnprotected (Symbol.is ')') false text.toList = false ∧
        (after = "" → endsInEscape false text.toList = false)
  | _ => False

instance (after : String) :
    (args : List Node) → Decidable (IsAddress after args)
  | [] => inferInstanceAs (Decidable (after = ""))
  | [.word text] =>
      have : Decidable (∀ c ∈ text.toList.head?,
          Symbol.isBlank c = false ∧ Symbol.isQuote c = false) :=
        Option.decidableForallMem _
      have : Decidable (∀ c ∈ text.toList.getLast?, Symbol.isBlank c = false) :=
        Option.decidableForallMem _
      inferInstanceAs (Decidable (text ≠ "" ∧
        (∀ c ∈ text.toList.head?,
          Symbol.isBlank c = false ∧ Symbol.isQuote c = false) ∧
        (∀ c ∈ text.toList.getLast?, Symbol.isBlank c = false) ∧ _ ∧ (_ → _)))
  | .word _ :: _ :: _ => isFalse id
  | .space _ :: _ | .quoted _ _ _ :: _ | .divider _ _ _ :: _
  | .call _ _ _ _ _ :: _ => isFalse id

namespace Node

/-- A star after a slash would open a comment. -/
def startsWithStar : Node → Bool
  | .word text => text.toList.head? == some '*'
  | .call name _ _ _ _ => name.toList.head? == some '*'
  | _ => false

def MayPrecede : Node → Node → Prop
  | .word _, next => next.word? = none ∧ next.args? = none
  | .space _, next => next.isSpace = false ∧ next.isDivider = false
  | .divider kind _ after, next =>
      next.isSpace = false ∧ (next.isDivider = true → after = "") ∧
        (kind = .slash → after = "" → next.startsWithStar = false)
  | .quoted _ _ _, _ => True
  | .call _ _ _ _ _, _ => True

/-- What may stand first inside a call: blanks there belong to the call. -/
def MayOpen : Node → Prop
  | .space _ => False
  | .divider _ before _ => before = ""
  | _ => True

def MayClose : Node → Prop
  | .space _ => False
  | .divider _ _ after => after = ""
  | _ => True

instance : (node next : Node) → Decidable (node.MayPrecede next)
  | .word _, next =>
      inferInstanceAs (Decidable (next.word? = none ∧ next.args? = none))
  | .space _, next => inferInstanceAs (Decidable (next.isSpace = false ∧ _))
  | .divider _ _ _, next =>
      inferInstanceAs (Decidable (next.isSpace = false ∧ (_ → _) ∧ (_ → _ → _)))
  | .quoted _ _ _, _ => isTrue trivial
  | .call _ _ _ _ _, _ => isTrue trivial

instance : (node : Node) → Decidable node.MayOpen
  | .space _ => isFalse id
  | .divider _ before _ => inferInstanceAs (Decidable (before = ""))
  | .word _ | .quoted _ _ _ | .call _ _ _ _ _ => isTrue trivial

instance : (node : Node) → Decidable node.MayClose
  | .space _ => isFalse id
  | .divider _ _ after => inferInstanceAs (Decidable (after = ""))
  | .word _ | .quoted _ _ _ | .call _ _ _ _ _ => isTrue trivial

end Node

mutual

/-- An item that is written in one way only; `address` says what the inside of
a raw call has to be. -/
def Node.IsFormed (address : String → List Node → Prop) : Node → Prop
  | .word text => IsPlainText text
  | .space text => text ≠ "" ∧ IsBlankText text
  | .quoted quote value closed =>
      (quote = '\'' ∨ quote = '"') ∧ IsQuotable quote value ∧ closed = true
  | .divider _ before after => IsBlankText before ∧ IsBlankText after
  | .call name before args after closed =>
      (name = "" ∨ IsPlainText name) ∧ IsBlankText before ∧
        IsBlankText after ∧ closed = true ∧
        if isRawCall name args then address after args
        else AreFormed address args ∧
          (∀ first ∈ args.head?, first.MayOpen) ∧
          (∀ last ∈ args.getLast?, last.MayClose) ∧
          (args = [] → after = "")

def AreFormed (address : String → List Node → Prop) : List Node → Prop
  | [] => True
  | node :: rest =>
      node.IsFormed address ∧ (∀ next ∈ rest.head?, node.MayPrecede next) ∧
        AreFormed address rest

end

abbrev Node.IsCanonical (node : Node) : Prop :=
  node.IsFormed IsAddress

abbrev AreCanonical (nodes : List Node) : Prop :=
  AreFormed IsAddress nodes

/-- Well formed, whatever the raw calls hold. -/
abbrev AreWellFormed (nodes : List Node) : Prop :=
  AreFormed (fun _ _ => True) nodes

/-- The raw calls of a sequence hold addresses, those deeper in it apart. -/
def HoldAddresses (nodes : List Node) : Prop :=
  ∀ name before args after, .call name before args after true ∈ nodes →
    isRawCall name args = true → IsAddress after args

theorem holdAddresses_of_subset {part nodes : List Node}
    (isPart : part ⊆ nodes) (addresses : AtEveryDepth HoldAddresses nodes) :
    AtEveryDepth HoldAddresses part := by
  rw [atEveryDepth_iff] at addresses ⊢
  obtain ⟨level, deeper⟩ := addresses
  refine ⟨?_, fun node member => deeper node (isPart member)⟩
  intro name before args after member
  exact level name before args after (isPart member)

mutual

theorem Node.isCanonical_of_isFormed :
    (node : Node) → node.IsFormed (fun _ _ => True) →
      AtEveryDepth HoldAddresses [node] → node.IsCanonical
  | .word _, formed, _ => formed
  | .space _, formed, _ => formed
  | .quoted _ _ _, formed, _ => formed
  | .divider _ _ _, formed, _ => formed
  | .call name before args after closed, formed, addresses => by
      obtain ⟨named, blankBefore, blankAfter, isClosed, inside⟩ := formed
      subst closed
      refine ⟨named, blankBefore, blankAfter, rfl, ?_⟩
      split at inside
      next isRaw =>
        rw [if_pos isRaw]
        exact addresses _ .whole name before args after
          (List.mem_singleton_self _) isRaw
      next notRaw =>
        rw [if_neg notRaw]
        refine ⟨areCanonical_of_areFormed args inside.1 ?_, inside.2⟩
        intro inner within
        exact addresses inner
          (.inside (List.mem_singleton_self _) rfl within)

theorem areCanonical_of_areFormed :
    (nodes : List Node) → AreWellFormed nodes →
      AtEveryDepth HoldAddresses nodes → AreCanonical nodes
  | [], _, _ => trivial
  | node :: rest, formed, addresses => by
      obtain ⟨nodeFormed, precedes, restFormed⟩ := formed
      refine ⟨Node.isCanonical_of_isFormed node nodeFormed ?_, precedes,
        areCanonical_of_areFormed rest restFormed ?_⟩
      · exact holdAddresses_of_subset (by simp) addresses
      · exact holdAddresses_of_subset (by simp) addresses

end

mutual

def Node.decidableIsFormed (address : String → List Node → Prop)
    [∀ after args, Decidable (address after args)] :
    (node : Node) → Decidable (node.IsFormed address)
  | .word text => inferInstanceAs (Decidable (IsPlainText text))
  | .space text => inferInstanceAs (Decidable (text ≠ "" ∧ IsBlankText text))
  | .quoted quote value closed =>
      inferInstanceAs (Decidable ((quote = '\'' ∨ quote = '"') ∧
        IsQuotable quote value ∧ closed = true))
  | .divider _ before after =>
      inferInstanceAs (Decidable (IsBlankText before ∧ IsBlankText after))
  | .call name before args after closed =>
      have := decidableAreFormed address args
      inferInstanceAs (Decidable ((name = "" ∨ IsPlainText name) ∧
        IsBlankText before ∧ IsBlankText after ∧ closed = true ∧
        if isRawCall name args then address after args
        else AreFormed address args ∧
          (∀ first ∈ args.head?, first.MayOpen) ∧
          (∀ last ∈ args.getLast?, last.MayClose) ∧
          (args = [] → after = "")))

def decidableAreFormed (address : String → List Node → Prop)
    [∀ after args, Decidable (address after args)] :
    (nodes : List Node) → Decidable (AreFormed address nodes)
  | [] => isTrue trivial
  | node :: rest =>
      have := Node.decidableIsFormed address node
      have := decidableAreFormed address rest
      inferInstanceAs (Decidable (node.IsFormed address ∧
        (∀ next ∈ rest.head?, node.MayPrecede next) ∧ AreFormed address rest))

end

instance (address : String → List Node → Prop)
    [∀ after args, Decidable (address after args)] :
    DecidablePred (AreFormed address) := decidableAreFormed address

/-! The lexemes that a canonical tree is read from. -/

def blankLexemes (gap : String) : List (Lexeme Char) :=
  if gap = "" then [] else [.blank gap.toList]

mutual

def Node.lexemes : Node → List (Lexeme Char)
  | .word text => [.word text.toList]
  | .space text => [.blank text.toList]
  | .quoted quote value closed => [.quoted quote value.toList closed]
  | .divider kind before after =>
      blankLexemes before ++ .divider kind :: blankLexemes after
  | .call name before args after closed =>
      if isRawCall name args then
        [.url name.toList before.toList (render args).toList after.toList closed]
      else
        .opening name.toList before.toList ::
          (lexemesOf args ++ (blankLexemes after ++ [.closing]))

def lexemesOf : List Node → List (Lexeme Char)
  | [] => []
  | node :: rest => node.lexemes ++ lexemesOf rest

end

theorem flatMap_text_blankLexemes (gap : String) :
    (blankLexemes gap).flatMap Lexeme.text = gap.toList := by
  by_cases isEmpty : gap = ""
  · simp [blankLexemes, isEmpty]
  · simp [blankLexemes, isEmpty, Lexeme.text]

mutual

theorem Node.flatMap_text_lexemes :
    (node : Node) → node.IsCanonical →
      node.lexemes.flatMap Lexeme.text = node.render.toList
  | .word text, _ => by simp [Node.lexemes, Node.render, Lexeme.text]
  | .space text, _ => by simp [Node.lexemes, Node.render, Lexeme.text]
  | .quoted quote value closed, canonical => by
      simp [Node.lexemes, Node.render, Lexeme.text, canonical.2.2]
  | .divider kind before after, _ => by
      simp [Node.lexemes, Node.render, Lexeme.text, flatMap_text_blankLexemes]
  | .call name before args after closed, canonical => by
      obtain ⟨-, -, -, isClosed, inside⟩ := canonical
      subst closed
      unfold Node.lexemes
      split at inside
      next isRaw =>
        simp [isRaw, Node.render, Lexeme.text]
      next notRaw =>
        have argsText := flatMap_text_lexemesOf args inside.1
        simp [notRaw, Node.render, Lexeme.text, argsText,
          flatMap_text_blankLexemes]

theorem flatMap_text_lexemesOf :
    (nodes : List Node) → AreCanonical nodes →
      (lexemesOf nodes).flatMap Lexeme.text = (render nodes).toList
  | [], _ => by simp [lexemesOf, render]
  | node :: rest, canonical => by
      have nodeText := Node.flatMap_text_lexemes node canonical.1
      have restText := flatMap_text_lexemesOf rest canonical.2.2
      simp [lexemesOf, render, nodeText, restText]

end

end StyleValue
