import InstrTable.Document.Cursor

/-!
Scalars of whole lines. Behind `|` the lines are kept as they are; behind `>` those
that begin with a word are folded into one.
-/

namespace InstrTable.Document

/-- What the line of the mark says: whether the end of the text is cut off or kept
whole, and how far the lines are indented. -/
structure LiteralStyle where
  folds : Bool
  keepsEnd : Option Bool := none
  indent : Option Nat := none
  deriving DecidableEq, Repr

namespace LiteralStyle

/-- Takes the sign that says what becomes of the end of the text. -/
def takeSign (s : LiteralStyle) (c : Cursor) : LiteralStyle × Cursor :=
  match c.rest with
  | '+' :: _ => ({ s with keepsEnd := some true }, c.next)
  | '-' :: _ => ({ s with keepsEnd := some false }, c.next)
  | _ => (s, c)

/-- Takes a digit that says how far the lines are indented, which is not zero. -/
def takeIndent? (s : LiteralStyle) (c : Cursor) : Option (LiteralStyle × Cursor) :=
  match c.rest with
  | d :: _ =>
    if d = '0' then none
    else if d.isDigit then some ({ s with indent := some (d.toNat - '0'.toNat) }, c.next)
    else some (s, c)
  | [] => some (s, c)

/-- Reads the line of the mark, behind the mark. -/
def read? (folds : Bool) (c : Cursor) : Option (LiteralStyle × Cursor) := do
  let (s, c) := takeSign { folds } c
  let (s, c) ← s.takeIndent? c
  let (s, c) := if s.keepsEnd.isNone then s.takeSign c else (s, c)
  if !(c.rest.head?.all fun d => d = ' ' || isBreak d) then none
  else
    let c := (c.skip (· = ' ')).skipComment
    match c.break?, c.rest with
    | some (_, c), _ => some (s, c)
    | none, [] => some (s, c)
    | none, _ => none

end LiteralStyle

/-- Skips spaces, up to a column. -/
def skipTo (column : Nat) (c : Cursor) : Cursor :=
  c.advance (min (column - c.column) (c.rest.takeWhile (· = ' ')).length)

/-- The empty lines in front of a line that is indented as far as `indent`. -/
def linesAbove (indent : Nat) : Nat → Cursor → List Char × Cursor
  | 0, c => ([], c)
  | fuel + 1, c =>
    let d := skipTo indent c
    match d.break? with
    | none => ([], d)
    | some (b, d) =>
      let (bs, d) := linesAbove indent fuel d
      (b :: bs, d)

/-- The empty lines in front of the first line, and how far they and it are indented
at most. -/
def firstLines : Nat → Cursor → List Char × Nat × Cursor
  | 0, c => ([], 0, c)
  | fuel + 1, c =>
    let d := c.skip (· = ' ')
    match d.break? with
    | none => ([], d.column, d)
    | some (b, e) =>
      let (bs, widest, e) := firstLines fuel e
      (b :: bs, max d.column widest, e)

/-- The text of a literal: its lines, the end of the last of them, and the empty
lines below it. -/
structure LiteralText where
  lines : List Char
  lastBreak : List Char
  below : List Char
  after : Cursor
  deriving DecidableEq, Repr

/-- What the end of a line and the empty lines below it stand for. -/
def lineGlue (folds : Bool) (line next lineBreak below : List Char) : List Char :=
  let isWord (cs : List Char) : Bool := !cs.head?.any isBlank
  if folds && lineBreak = ['\n'] && isWord line && isWord next then
    if below.isEmpty then [' '] else []
  else lineBreak

/-- Reads the lines from `c` on, which is behind the indentation of the first. -/
def literalLines (folds : Bool) (indent : Nat) : Nat → List Char → Cursor → LiteralText
  | 0, above, c => ⟨[], [], above, c⟩
  | fuel + 1, above, c =>
    if c.column = indent ∧ c.rest ≠ [] then
      let line := c.rest.takeWhile (!isBreak ·)
      let d := c.advance line.length
      let (lineBreak, d) := match d.break? with
        | some (b, d) => ([b], d)
        | none => ([], d)
      let (below, d) := linesAbove indent (d.rest.length + 1) d
      if d.column = indent ∧ d.rest ≠ [] then
        let t := literalLines folds indent fuel below d
        { t with lines := above ++ line ++ lineGlue folds line d.rest lineBreak below ++ t.lines }
      else ⟨above ++ line, lineBreak, below, d⟩
    else ⟨[], [], above, c⟩

/-- Reads a literal, behind its mark. Its lines are indented to `margin` at least. -/
def literal? (folds : Bool) (margin : Nat) (c : Cursor) : Option (List Char × Cursor) := do
  let (s, c) ← LiteralStyle.read? folds c
  let least := max margin 1
  let fuel := c.rest.length + 1
  let (indent, above, c) := match s.indent with
    | none =>
      let (above, widest, c) := firstLines fuel c
      (max least widest, above, c)
    | some n =>
      let (above, c) := linesAbove (least + n - 1) fuel c
      (least + n - 1, above, c)
  let t := literalLines folds indent fuel above c
  let lastBreak := if s.keepsEnd = some false then [] else t.lastBreak
  let below := if s.keepsEnd = some true then t.below else []
  return (t.lines ++ lastBreak ++ below, t.after)

end InstrTable.Document
