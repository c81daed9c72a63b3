import InstrTable.Document.Literal
import InstrTable.Document.Plain
import InstrTable.Document.Token

/-!
Reading the tokens of a text. A key of a map is known only by the colon behind it, so
its tokens are put in front of those that were read since it began.
-/

namespace InstrTable.Document

/-- A node that a colon would make a key: the number of tokens in front of it, and
where it begins. It must become one if it stands where a key of a map is due. -/
structure PossibleKey where
  tokens : Nat
  isRequired : Bool
  index : Nat
  line : Nat
  column : Nat
  deriving DecidableEq, Repr

/-- A key stands on one line and is not longer than this. -/
def longestKey : Nat := 1024

def PossibleKey.isStale (k : PossibleKey) (c : Cursor) : Bool :=
  k.line ≠ c.line || longestKey < c.index - k.index

/-- A reading of tokens in progress. Open lists and maps are given by their columns
when indentation tells their ends, and by the keys around them when brackets do; the
innermost comes first. -/
structure Lexer where
  cursor : Cursor
  tokens : Array Token := #[]
  columns : List Nat := []
  /-- The node before the cursor that may be a key. -/
  key : Option PossibleKey := none
  /-- Those of the collections in brackets around it. -/
  outerKeys : List (Option PossibleKey) := []
  /-- Whether a key may begin here. -/
  allowsKey : Bool := true

namespace Lexer

def inFlow (s : Lexer) : Bool := !s.outerKeys.isEmpty

def emit (t : Token) (s : Lexer) : Lexer := { s with tokens := s.tokens.push t }

/-- Puts a token in front of those from number `n` on. -/
def insert (n : Nat) (t : Token) (s : Lexer) : Lexer :=
  { s with tokens := s.tokens.insertIdxIfInBounds n t }

/-- The first column that is inside the innermost block. -/
def margin (s : Lexer) : Nat :=
  match s.columns with
  | [] => 0
  | column :: _ => column + 1

/-- Closes the blocks that are not as far to the left as a column. -/
def closeBlocks (column : Nat) (s : Lexer) : Lexer :=
  let closed := s.columns.takeWhile fun n => column < n
  { s with
    columns := s.columns.drop closed.length
    tokens := s.tokens ++ List.replicate closed.length Token.blockEnd }

def closeAllBlocks (s : Lexer) : Lexer :=
  { s with columns := [], tokens := s.tokens ++ List.replicate s.columns.length Token.blockEnd }

/-- Forgets the possible key, which must not be a required one. -/
def dropKey (s : Lexer) : Except ReadError Lexer :=
  if s.key.any (·.isRequired) then .error .malformed else .ok { s with key := none }

/-- Notes that a key may begin at the cursor. -/
def saveKey (s : Lexer) : Except ReadError Lexer :=
  if s.allowsKey then
    s.dropKey.map fun s =>
      { s with
        key := some {
          tokens := s.tokens.size
          isRequired := !s.inFlow && s.columns.head? = some s.cursor.column
          index := s.cursor.index
          line := s.cursor.line
          column := s.cursor.column } }
  else .ok s

/-- Forgets the possible keys that the cursor is too far from. -/
def dropStaleKeys (s : Lexer) : Except ReadError Lexer :=
  let isStale (k : Option PossibleKey) : Bool := k.any (·.isStale s.cursor)
  let isLost (k : Option PossibleKey) : Bool := isStale k && k.any (·.isRequired)
  let keep (k : Option PossibleKey) : Option PossibleKey := if isStale k then none else k
  if isLost s.key || s.outerKeys.any isLost then .error .malformed
  else .ok { s with key := keep s.key, outerKeys := s.outerKeys.map keep }

/-- Opens a block at a column unless one is open there, with its first token in front
of those from number `n` on. -/
def openBlock (n column : Nat) (t : Token) (s : Lexer) : Lexer :=
  if s.margin ≤ column then { s.insert n t with columns := column :: s.columns } else s

/-- Skips blanks, comments, and ends of lines. Behind the end of a line a key may
begin. -/
def skipGap : Nat → Lexer → Lexer
  | 0, s => s
  | fuel + 1, s =>
    let c := (s.cursor.skip (· = ' ')).skipComment
    match c.break? with
    | none => { s with cursor := c }
    | some (_, c) => skipGap fuel { s with cursor := c, allowsKey := s.allowsKey || !s.inFlow }

/-- Takes a mark of `width` characters. -/
def mark (width : Nat) (t : Token) (s : Lexer) : Lexer :=
  { s.emit t with cursor := s.cursor.advance width }

/-- Ends the blocks in front of a line that is not a part of the document. -/
def leaveDocument (s : Lexer) : Except ReadError Lexer :=
  if s.inFlow then .error .malformed
  else s.closeAllBlocks.dropKey.map fun s => { s with allowsKey := false }

def openFlow (t : Token) (s : Lexer) : Except ReadError Lexer :=
  s.saveKey.map fun s =>
    { s.mark 1 t with key := none, outerKeys := s.key :: s.outerKeys, allowsKey := true }

def closeFlow (t : Token) (s : Lexer) : Except ReadError Lexer :=
  s.dropKey.bind fun s =>
    match s.outerKeys with
    | [] => .error .malformed
    | key :: outerKeys => .ok { s.mark 1 t with key, outerKeys, allowsKey := false }

/-- Takes a hyphen or a question mark. Outside of brackets it opens a block, unless
one is open at its column. -/
def entry (block : Token) (t : Token) (s : Lexer) : Except ReadError Lexer :=
  if !s.inFlow && !s.allowsKey then .error .malformed
  else
    let s := if s.inFlow then s else s.openBlock s.tokens.size s.cursor.column block
    s.dropKey.map (·.mark 1 t)

/-- Takes a colon. It makes a key of the node before it, if there may be one. -/
def value (s : Lexer) : Except ReadError Lexer :=
  match s.key with
  | some k =>
    let s := { s.insert k.tokens .key with key := none, allowsKey := false }
    .ok ((if s.inFlow then s else s.openBlock k.tokens k.column .blockMap).mark 1 .value)
  | none =>
    (s.entry .blockMap .value).map fun s => { s with allowsKey := !s.inFlow }

/-- Takes a node that may be a key. -/
def node (read : Cursor → Except ReadError (Token × Cursor)) (s : Lexer) :
    Except ReadError Lexer := do
  let s ← s.saveKey
  let (t, cursor) ← read s.cursor
  return { s.emit t with cursor, allowsKey := false }

def plain (s : Lexer) : Except ReadError Lexer :=
  s.saveKey.map fun s =>
    let (text, cursor, endsLine) := Document.plain s.inFlow s.margin s.cursor
    { s.emit (.scalar (String.ofList text) true) with cursor, allowsKey := endsLine }

def literal (folds : Bool) (s : Lexer) : Except ReadError Lexer := do
  let s ← s.dropKey
  let (text, cursor) ← wellFormed (literal? folds s.margin s.cursor.next)
  return { s.emit (.scalar (String.ofList text) false) with cursor, allowsKey := true }

/-- Reads a character that is a mark by itself or begins a node. -/
def character (d : Char) (rest : List Char) (s : Lexer) : Except ReadError Lexer :=
  let inFlow := s.inFlow
  let isWord := endsWord rest
  let named (t : String → Token) (c : Cursor) : Except ReadError (Token × Cursor) :=
    wellFormed ((nodeName? c.next).map fun (name, c) => (t name, c))
  let text (c : Cursor) : Except ReadError (Token × Cursor) :=
    (quoted c).map fun (t, c) => (.scalar (String.ofList t) false, c)
  match d with
  | '[' => s.openFlow .flowList
  | '{' => s.openFlow .flowMap
  | ']' => s.closeFlow .flowListEnd
  | '}' => s.closeFlow .flowMapEnd
  | ',' => s.dropKey.map fun s => { s.mark 1 .comma with allowsKey := true }
  | '*' => s.node (named .alias)
  | '&' => s.node (named .anchor)
  | '!' => s.node fun c => wellFormed ((tag? c).map fun (t, c) => (.tag t, c))
  | '\'' => s.node text
  | '"' => s.node text
  | _ =>
    if d = '-' && isWord then
      (s.entry .blockList .item).map fun s => { s with allowsKey := true }
    else if d = '?' && (inFlow || isWord) then
      (s.entry .blockMap .key).map fun s => { s with allowsKey := !inFlow }
    else if d = ':' && (inFlow || isWord) then s.value
    else if (d = '|' || d = '>') && !inFlow then s.literal (d = '>')
    else if beginsPlain inFlow (d :: rest) then s.plain
    else .error .malformed

/-- Reads a mark or a node. -/
def step (s : Lexer) : Except ReadError Lexer := do
  let s ← (s.skipGap (s.cursor.rest.length + 1)).dropStaleKeys
  let s := if s.inFlow then s else s.closeBlocks s.cursor.column
  let c := s.cursor
  match c.rest with
  | [] => s.leaveDocument
  | d :: rest =>
    if d = '%' && c.column = 0 then
      let s ← s.leaveDocument
      let (directive, cursor) ← wellFormed (directive? c.next)
      return { s.emit (.directive directive) with cursor }
    else if c.isAtMark ['-', '-', '-'] then s.leaveDocument.map (·.mark 3 .documentStart)
    else if c.isAtMark ['.', '.', '.'] then s.leaveDocument.map (·.mark 3 .documentEnd)
    else s.character d rest

/-- The tokens in front of which no other will be put. -/
def settled (s : Lexer) : List Token :=
  let pending := ((s.key :: s.outerKeys).filterMap id).filter fun k => !k.isStale s.cursor
  s.tokens.toList.take (pending.foldl (fun n k => min n k.tokens) s.tokens.size)

/-- Reads to the end of the text, or as far as one can. -/
def run : Nat → Lexer → List Token
  | 0, s => s.settled ++ [.broken .malformed]
  | fuel + 1, s =>
    match s.step with
    | .error e => s.settled ++ [.broken e]
    | .ok s =>
      if s.cursor.rest.isEmpty then
        match s.leaveDocument with
        | .error e => s.settled ++ [.broken e]
        | .ok s => s.tokens.toList
      else run fuel s

end Lexer

/-- The tokens of a text. What makes it unreadable stands where it is met, since it
does not matter if the nodes are malformed before. -/
def Token.ofText (cs : List Char) : List Token :=
  if cs.all isAllowed then
    let c : Cursor := { rest := withLineFeeds cs }
    let c := if cs.head? = some byteOrderMark then c.next else c
    Lexer.run (cs.length + 1) { cursor := c }
  else [.broken .malformed]

end InstrTable.Document
