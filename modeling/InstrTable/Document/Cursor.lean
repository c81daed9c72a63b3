import InstrTable.Text.Piece

/-!
Places in the text of a document, and the blanks and ends of lines there.
-/

namespace InstrTable.Document

/-- Characters that end a line. -/
def isBreak (c : Char) : Bool :=
  c = '\n' || c = '\r' || c = '\x85' || c = '\u2028' || c = '\u2029'

def isBlank (c : Char) : Bool := c = ' ' || c = '\t'

/-- Characters between words. -/
def isGap (c : Char) : Bool := isBlank c || isBreak c

/-- Whether a word may end in front of `cs`. -/
def endsWord (cs : List Char) : Bool := cs.head?.all isGap

/-- The character that comes before every other and counts for none. -/
def byteOrderMark : Char := '\ufeff'

/-- A place in a text: what follows it, the number of characters before it, and the
line and column that it is in. -/
structure Cursor where
  rest : List Char
  index : Nat := 0
  line : Nat := 0
  column : Nat := 0
  deriving DecidableEq, Repr

namespace Cursor

/-- The place one character further. -/
def next (c : Cursor) : Cursor :=
  match c.rest with
  | [] => c
  | d :: rest =>
    if isBreak d then { rest, index := c.index + 1, line := c.line + 1, column := 0 }
    else
      let width := if d = byteOrderMark then 0 else 1
      { rest, index := c.index + 1, line := c.line, column := c.column + width }

/-- The place `n` characters further. -/
def advance : Nat → Cursor → Cursor
  | 0, c => c
  | n + 1, c => advance n c.next

def skip (p : Char → Bool) (c : Cursor) : Cursor := c.advance (c.rest.takeWhile p).length

/-- Skips a comment, up to the end of its line. -/
def skipComment (c : Cursor) : Cursor :=
  if c.rest.head? = some '#' then c.skip (!isBreak ·) else c

/-- Takes the end of a line. All ends count as one, save for the two separators. -/
def break? (c : Cursor) : Option (Char × Cursor) :=
  match c.rest with
  | [] => none
  | d :: _ =>
    if isBreak d then some (if d = '\u2028' ∨ d = '\u2029' then d else '\n', c.next) else none

/-- Whether a line begins here with `mark` as its first word. -/
def isAtMark (mark : List Char) (c : Cursor) : Bool :=
  c.column = 0 && (Text.after? mark c.rest).any endsWord

/-- Whether a document begins or ends here. -/
def isAtSeparator (c : Cursor) : Bool := c.isAtMark ['-', '-', '-'] || c.isAtMark ['.', '.', '.']

/-- Skips the blanks and the empty lines from the start of a line on, up to a
separator. It gives the ends of the lines. -/
def breaks (isSkipped : Char → Bool) : Nat → Cursor → List Char × Cursor
  | 0, c => ([], c)
  | fuel + 1, c =>
    if c.isAtSeparator then ([], c)
    else
      let d := c.skip isSkipped
      match d.break? with
      | none => ([], d)
      | some (b, d) =>
        let (bs, d) := breaks isSkipped fuel d
        (b :: bs, d)

/-- The empty lines below the line that ended just before. -/
def emptyLines (isSkipped : Char → Bool) (c : Cursor) : List Char × Cursor :=
  c.breaks isSkipped (c.rest.length + 1)

end Cursor

/-- What the end of a line and the empty lines below it stand for inside a text: a
space, or the empty lines if there are any. -/
def folded (first : Char) (empty : List Char) : List Char :=
  if first ≠ '\n' then first :: empty else if empty.isEmpty then [' '] else empty

/-- Whether a text of a document may hold a character. -/
def isAllowed (c : Char) : Bool :=
  let n := c.toNat
  n = 0x09 || n = 0x0A || n = 0x0D || n = 0x85 || (0x20 ≤ n && n ≤ 0x7E) ||
    (0xA0 ≤ n && n ≤ 0xFFFD) || 0x10000 ≤ n

/-- A text in which every line that ends with a carriage return, a line feed, or the
two together ends with a line feed. -/
def withLineFeeds : List Char → List Char
  | [] => []
  | '\r' :: '\n' :: cs => '\n' :: withLineFeeds cs
  | '\r' :: cs => '\n' :: withLineFeeds cs
  | c :: cs => c :: withLineFeeds cs

end InstrTable.Document
