import InstrTable.Document.Cursor

/-!
Plain scalars. They run over blanks and ends of lines, up to a mark, a comment, or a
line that is not indented enough.
-/

namespace InstrTable.Document

/-- Marks of lists and maps in brackets. -/
def isFlowMark (c : Char) : Bool := c = ',' || c = '[' || c = ']' || c = '{' || c = '}'

/-- Whether a colon in front of `cs` ends a key. -/
def endsKey (inFlow : Bool) (cs : List Char) : Bool :=
  endsWord cs || (inFlow && cs.head?.any isFlowMark)

/-- The word of a plain scalar that `cs` begins with. -/
def plainWord (inFlow : Bool) : List Char → List Char
  | [] => []
  | c :: cs =>
    if isGap c || (c = ':' && endsKey inFlow cs) || (inFlow && (isFlowMark c || c = '?')) then []
    else c :: plainWord inFlow cs

/-- Characters that no plain scalar begins with. -/
def isIndicator (c : Char) : Bool :=
  isFlowMark c || c = '#' || c = '&' || c = '*' || c = '!' || c = '|' || c = '>' || c = '\'' ||
    c = '"' || c = '%' || c = '@' || c = '`'

/-- Whether a plain scalar begins with `cs`. -/
def beginsPlain (inFlow : Bool) (cs : List Char) : Bool :=
  match cs with
  | [] => false
  | c :: rest =>
    if isGap c || isIndicator c then false
    else if c = '-' then !endsWord rest
    else if c = '?' || c = ':' then !inFlow && !endsWord rest
    else true

/-- A gap behind a word: what it stands for, where it ends, and whether a line ends
in it. Nothing that stands for nothing is followed by another word. -/
structure Gap where
  text : List Char
  after : Cursor
  endsLine : Bool
  deriving DecidableEq, Repr

def gap (c : Cursor) : Gap :=
  let d := c.skip (· = ' ')
  match d.break? with
  | none => ⟨c.rest.takeWhile (· = ' '), d, false⟩
  | some (b, d) =>
    let (bs, d) := d.emptyLines (· = ' ')
    ⟨if d.isAtSeparator then [] else folded b bs, d, true⟩

/-- Whether a plain scalar ends with a gap. -/
def Gap.isLast (g : Gap) (inFlow : Bool) (margin : Nat) : Bool :=
  g.text.isEmpty || g.after.rest.head? = some '#' || (!inFlow && g.after.column < margin)

/-- Reads what follows the gap `g` of a plain scalar. It gives, with the text, the
place behind it, and whether a line ended just before. -/
def plainFrom (inFlow : Bool) (margin : Nat) : Nat → Gap → List Char × Cursor × Bool
  | 0, g => ([], g.after, g.endsLine)
  | fuel + 1, g =>
    match plainWord inFlow g.after.rest with
    | [] => ([], g.after, g.endsLine)
    | word =>
      let g' := gap (g.after.advance word.length)
      if g'.isLast inFlow margin then (g.text ++ word, g'.after, g'.endsLine)
      else
        let (text, rest) := plainFrom inFlow margin fuel g'
        (g.text ++ word ++ text, rest)

/-- Reads a plain scalar, whose lines must reach `margin` unless it is in brackets. -/
def plain (inFlow : Bool) (margin : Nat) (c : Cursor) : List Char × Cursor × Bool :=
  plainFrom inFlow margin (c.rest.length + 1) ⟨[], c, false⟩

end InstrTable.Document
