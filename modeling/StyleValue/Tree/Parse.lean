import StyleValue.Tree.Lexeme

namespace StyleValue

/-- An open call: its name, the blanks after its bracket, and the items that
stand before it, latest first. -/
structure OpenCall where
  name : String
  before : String
  outer : List Node

/-- A tree being read: the items of the innermost open call, latest first, and
the open calls, innermost first. -/
structure Draft where
  nodes : List Node
  calls : List OpenCall

namespace Draft

def empty : Draft := ⟨[], []⟩

def push (draft : Draft) (node : Node) : Draft :=
  { draft with nodes := node :: draft.nodes }

/-- Blanks join a divider or a space right before them, which comes about when
a comment stood in between. -/
def addBlank (draft : Draft) (gap : String) : Draft :=
  match draft.nodes with
  | .divider kind before after :: rest =>
      { draft with nodes := .divider kind before (after ++ gap) :: rest }
  | .space text :: rest => { draft with nodes := .space (text ++ gap) :: rest }
  | nodes => { draft with nodes := .space gap :: nodes }

/-- Take back a space at the end, which belongs to what follows it. -/
def takeSpace : List Node → String × List Node
  | .space text :: rest => (text, rest)
  | nodes => ("", nodes)

def divide (draft : Draft) (gap : String) (kind : Divider) : Draft :=
  let taken := takeSpace draft.nodes
  { draft with nodes := .divider kind (taken.1 ++ gap) "" :: taken.2 }

def enter (draft : Draft) (name before : String) : Draft :=
  ⟨[], ⟨name, before, draft.nodes⟩ :: draft.calls⟩

/-- Close the innermost call; without an open call nothing happens. -/
def leave (draft : Draft) (gap : String) : Draft :=
  match draft.calls with
  | [] => draft
  | call :: calls =>
      let taken := takeSpace draft.nodes
      ⟨.call call.name call.before taken.2.reverse (taken.1 ++ gap) true ::
        call.outer, calls⟩

/-- A call around an address without quotes, which may be empty. -/
def address (name before text after : String) (closed : Bool) : Node :=
  .call name before (if text.isEmpty then [] else [.word text]) after closed

/-- Read lexemes into the tree. Blanks before a divider or a closing bracket
go with it; comments leave no trace. -/
def extend (draft : Draft) : List (Lexeme Char) → Draft
  | [] => draft
  | .blank gap :: .divider kind :: rest =>
      (draft.divide (String.ofList gap) kind).extend rest
  | .blank gap :: .closing :: rest =>
      (draft.leave (String.ofList gap)).extend rest
  | .blank gap :: rest => (draft.addBlank (String.ofList gap)).extend rest
  | .quoted quote value closed :: rest =>
      (draft.push (.quoted quote (String.ofList value) closed)).extend rest
  | .comment _ _ :: rest => draft.extend rest
  | .divider kind :: rest => (draft.divide "" kind).extend rest
  | .opening name before :: rest =>
      (draft.enter (String.ofList name) (String.ofList before)).extend rest
  | .url name before text after closed :: rest =>
      (draft.push (address (String.ofList name) (String.ofList before)
        (String.ofList text) (String.ofList after) closed)).extend rest
  | .closing :: rest => (draft.leave "").extend rest
  | .word text :: rest => (draft.push (.word (String.ofList text))).extend rest

/-- Calls that are still open end with the text. -/
def closeAll (nodes : List Node) : List OpenCall → List Node
  | [] => nodes.reverse
  | call :: calls =>
      closeAll (.call call.name call.before nodes.reverse "" false ::
        call.outer) calls

def finish (draft : Draft) : List Node :=
  closeAll draft.nodes draft.calls

end Draft

/-- The items of a declared value. Every text has a tree. -/
def parse (text : String) : List Node :=
  (Draft.empty.extend (Lexeme.lex 0 text.toList)).finish

end StyleValue
