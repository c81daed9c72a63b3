import InstrTable.Document.Cursor
import InstrTable.Document.ReadError
import InstrTable.Text.Radix

/-!
Quoted scalars. Between apostrophes an apostrophe is written twice; between double
quotes a backslash begins an escape. The end of a line stands for a space.
-/

namespace InstrTable.Document

/-- What a letter behind a backslash stands for. -/
def escapedChar? (c : Char) : Option Char :=
  match c with
  | '0' => some '\x00'
  | 'a' => some '\x07'
  | 'b' => some '\x08'
  | 't' => some '\t'
  | '\t' => some '\t'
  | 'n' => some '\n'
  | 'v' => some '\x0b'
  | 'f' => some '\x0c'
  | 'r' => some '\r'
  | 'e' => some '\x1b'
  | ' ' => some ' '
  | '"' => some '"'
  | '\\' => some '\\'
  | '/' => some '/'
  | 'N' => some '\x85'
  | '_' => some '\xa0'
  | 'L' => some '\u2028'
  | 'P' => some '\u2029'
  | _ => none

/-- The number of hexadecimal digits behind a letter that is behind a backslash. -/
def escapeWidth? (c : Char) : Option Nat :=
  match c with
  | 'x' => some 2
  | 'u' => some 4
  | 'U' => some 8
  | _ => none

/-- The character with a code of `width` hexadecimal digits. -/
def codedChar (width : Nat) (c : Cursor) : Except ReadError (List Char × Cursor) := do
  let ds := c.rest.take width
  let n ← wellFormed (Text.natIn? 16 ds)
  if ds.length ≠ width then .error .malformed
  else if 0x110000 ≤ n then .error .character
  else if n.isValidChar then .ok ([Char.ofNat n], c.advance width)
  else .error .malformed

/-- Reads an escape behind its backslash. The end of a line and the blanks around it
stand for nothing if they are escaped. -/
def escape (c : Cursor) : Except ReadError (List Char × Cursor) :=
  match c.rest with
  | [] => .error .malformed
  | d :: _ =>
    match escapedChar? d, escapeWidth? d, c.break? with
    | some e, _, _ => .ok ([e], c.next)
    | none, some width, _ => codedChar width c.next
    | none, none, some (_, after) =>
      let (bs, after) := after.emptyLines isBlank
      if after.isAtSeparator then .error .malformed else .ok (bs, after)
    | none, none, none => .error .malformed

/-- Reads the blanks and the ends of lines between two words. -/
def quotedGap (c : Cursor) : Except ReadError (List Char × Cursor) :=
  let d := c.skip isBlank
  match d.break? with
  | none => .ok (c.rest.takeWhile isBlank, d)
  | some (b, d) =>
    let (bs, d) := d.emptyLines isBlank
    if d.isAtSeparator then .error .malformed else .ok (folded b bs, d)

/-- Reads up to the closing mark, and over it. -/
def quotedFrom (mark : Char) : Nat → Cursor → Except ReadError (List Char × Cursor)
  | 0, _ => .error .malformed
  | fuel + 1, c =>
    let goOn (text : List Char) (c : Cursor) : Except ReadError (List Char × Cursor) :=
      (quotedFrom mark fuel c).map fun (rest, c) => (text ++ rest, c)
    match c.rest with
    | [] => .error .malformed
    | d :: rest =>
      if d = mark then
        if mark = '\'' ∧ rest.head? = some '\'' then goOn [d] c.next.next else .ok ([], c.next)
      else if d = '\\' ∧ mark = '"' then (escape c.next).bind fun (text, c) => goOn text c
      else if isGap d then (quotedGap c).bind fun (text, c) => goOn text c
      else goOn [d] c.next

/-- Reads a quoted scalar. -/
def quoted (c : Cursor) : Except ReadError (List Char × Cursor) :=
  match c.rest with
  | [] => .error .malformed
  | mark :: _ => quotedFrom mark (c.rest.length + 1) c.next

end InstrTable.Document
