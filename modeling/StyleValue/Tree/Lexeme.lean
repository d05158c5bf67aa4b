import StyleValue.Text.Escape
import StyleValue.Tree.Node

namespace StyleValue

/-- A piece of value text, read in one step. An `opening` holds the name and the
blanks after the bracket; a `url` without quotes is read up to its closing
bracket at once, because nothing inside it is structure, and the blanks at its
end are not part of the address. -/
inductive Lexeme (α : Type) where
  | blank (text : List α)
  | quoted (quote : Char) (value : List α) (closed : Bool)
  | comment (body : List α) (closed : Bool)
  | divider (kind : Divider)
  | opening (name before : List α)
  | url (name before address after : List α) (closed : Bool)
  | closing
  | word (text : List α)
deriving DecidableEq, Repr

namespace Lexeme

/-- The text that the lexeme was read from. -/
def text : Lexeme Char → List Char
  | .blank text => text
  | .quoted quote value closed =>
      quote :: value ++ (if closed then [quote] else [])
  | .comment body closed =>
      '/' :: '*' :: body ++ (if closed then ['*', '/'] else [])
  | .divider kind => [kind.toChar]
  | .opening name before => name ++ '(' :: before
  | .url name before address after closed =>
      name ++ '(' :: before ++ address ++ after ++
        (if closed then [')'] else [])
  | .closing => [')']
  | .word text => text

def isComment {α : Type} : Lexeme α → Bool
  | .comment _ _ => true
  | _ => false

/-- The number of open calls after the lexeme. -/
def depthAfter {α : Type} (depth : Nat) : Lexeme α → Nat
  | .opening _ _ => depth + 1
  | .closing => depth - 1
  | _ => depth

variable {α : Type} [Symbol α]

def dividerOf? (symbol : α) : Option Divider :=
  if Symbol.is ',' symbol then some .comma
  else if Symbol.is '/' symbol then some .slash
  else if Symbol.is ':' symbol then some .colon
  else none

/-- An unprotected symbol before which a word stops. Outside every call a
closing bracket is an ordinary symbol. -/
def endsWord (nested : Bool) (symbol : α) : Bool :=
  Symbol.isBlank symbol || Symbol.isQuote symbol ||
    (dividerOf? symbol).isSome || Symbol.is '(' symbol ||
    (nested && Symbol.is ')' symbol)

/-- The rest of a word, and what follows the word. -/
def scanWord (nested : Bool) : (escaped : Bool) → List α → List α × List α
  | _, [] => ([], [])
  | escaped, symbol :: rest =>
      if !escaped && endsWord nested symbol then ([], symbol :: rest)
      else
        let scanned := scanWord nested (!escaped && Symbol.is '\\' symbol) rest
        (symbol :: scanned.1, scanned.2)

theorem length_scanWord_rest_le (nested escaped : Bool) (text : List α) :
    (scanWord nested escaped text).2.length ≤ text.length := by
  induction text generalizing escaped with
  | nil => simp [scanWord]
  | cons symbol rest ih =>
      simp only [scanWord]
      split
      · simp
      · have := ih (!escaped && Symbol.is '\\' symbol)
        simp only [List.length_cons]
        omega

/-- The body of a comment, up to the first star that a slash follows. -/
def scanComment : List α → Delimited α
  | [] => ⟨[], [], false⟩
  | [symbol] => ⟨[symbol], [], false⟩
  | symbol :: next :: rest =>
      if Symbol.is '*' symbol && Symbol.is '/' next then ⟨[], rest, true⟩
      else (scanComment (next :: rest)).cons symbol

theorem length_scanComment_rest_le (text : List α) :
    (scanComment text).rest.length ≤ text.length := by
  fun_induction scanComment text with
  | case1 => simp
  | case2 => simp
  | case3 symbol next rest _ => simp only [List.length_cons]; omega
  | case4 symbol next rest _ ih =>
      simp only [Delimited.rest_cons, List.length_cons] at ih ⊢
      omega

def dropBlankEnd (text : List α) : List α :=
  (text.reverse.dropWhile Symbol.isBlank).reverse

def blankEnd (text : List α) : List α :=
  (text.reverse.takeWhile Symbol.isBlank).reverse

/-- What a call's name and bracket begin; `text` follows the bracket. -/
def readOpening (name text : List α) : Lexeme α × List α :=
  let before := text.takeWhile Symbol.isBlank
  let inside := text.dropWhile Symbol.isBlank
  if Symbol.spells "url" name && !inside.head?.any Symbol.isQuote then
    let scanned := scanTo ')' false inside
    (.url name before (dropBlankEnd scanned.content)
      (blankEnd scanned.content) scanned.closed, scanned.rest)
  else (.opening name before, inside)

/-- The lexeme at the start of a text, and the rest of the text. -/
def read (nested : Bool) (symbol : α) (rest : List α) : Lexeme α × List α :=
  if Symbol.isBlank symbol then
    (.blank (symbol :: rest.takeWhile Symbol.isBlank),
      rest.dropWhile Symbol.isBlank)
  else if Symbol.isQuote symbol then
    let quote := if Symbol.is '"' symbol then '"' else '\''
    let scanned := scanTo quote false rest
    (.quoted quote scanned.content scanned.closed, scanned.rest)
  else if Symbol.is '/' symbol && rest.head?.any (Symbol.is '*') then
    let scanned := scanComment rest.tail
    (.comment scanned.content scanned.closed, scanned.rest)
  else match dividerOf? symbol with
    | some kind => (.divider kind, rest)
    | none =>
        if Symbol.is '(' symbol then readOpening [] rest
        else if nested && Symbol.is ')' symbol then (.closing, rest)
        else
          let scanned := scanWord nested (Symbol.is '\\' symbol) rest
          match scanned.2 with
          | [] => (.word (symbol :: scanned.1), [])
          | next :: inside =>
              if Symbol.is '(' next then readOpening (symbol :: scanned.1) inside
              else (.word (symbol :: scanned.1), next :: inside)

theorem length_readOpening_rest_le (name text : List α) :
    (readOpening name text).2.length ≤ text.length := by
  have inside :=
    (List.dropWhile_sublist Symbol.isBlank (l := text)).length_le
  have scanned := length_scanTo_rest_le ')' false (text.dropWhile Symbol.isBlank)
  simp only [readOpening]
  split <;> simp only <;> omega

theorem length_read_rest_le (nested : Bool) (symbol : α) (rest : List α) :
    (read nested symbol rest).2.length ≤ rest.length := by
  simp only [read]
  split
  · exact (List.dropWhile_sublist _).length_le
  split
  · exact length_scanTo_rest_le _ _ _
  split
  · have := length_scanComment_rest_le rest.tail
    simp only [List.length_tail] at this
    simp only
    omega
  split
  · simp
  split
  · exact length_readOpening_rest_le _ _
  split
  · simp
  have scanned := length_scanWord_rest_le nested (Symbol.is '\\' symbol) rest
  split
  · simp
  · next next inside reached =>
    rw [reached, List.length_cons] at scanned
    split
    · have := length_readOpening_rest_le (symbol ::
        (scanWord nested (Symbol.is '\\' symbol) rest).1) inside
      omega
    · simpa using scanned

/-- The lexemes of a text that stands inside `depth` open calls. -/
def lex (depth : Nat) : List α → List (Lexeme α)
  | [] => []
  | symbol :: rest =>
      let step := read (0 < depth) symbol rest
      step.1 :: lex (step.1.depthAfter depth) step.2
termination_by text => text.length
decreasing_by
  have := length_read_rest_le (0 < depth) symbol rest
  simp only [List.length_cons]
  omega

end Lexeme

end StyleValue
