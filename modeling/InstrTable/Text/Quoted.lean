import InstrTable.Text.Printable

/-!
Quoted text. A text stands between apostrophes, or between double quotes when it
holds an apostrophe and no double quote. What cannot be printed is escaped.
-/

namespace InstrTable.Text

/-- The last `width` hexadecimal digits of `n`, in lower case. -/
def hexDigits (width n : Nat) : List Char :=
  (List.range width).reverse.map fun i => Nat.digitChar ((n >>> (4 * i)) % 16)

/-- How `c` is written between quotes of the kind `mark`. -/
def escaped (mark c : Char) : List Char :=
  if c = mark ∨ c = '\\' then ['\\', c]
  else if c = '\n' then ['\\', 'n']
  else if c = '\r' then ['\\', 'r']
  else if c = '\t' then ['\\', 't']
  else if isPrintable c then [c]
  else if c.toNat < 0x100 then '\\' :: 'x' :: hexDigits 2 c.toNat
  else if c.toNat < 0x10000 then '\\' :: 'u' :: hexDigits 4 c.toNat
  else '\\' :: 'U' :: hexDigits 8 c.toNat

/-- The quote that a text is written between. -/
def quoteMark (cs : List Char) : Char :=
  if cs.contains '\'' && !cs.contains '"' then '"' else '\''

def quoted (cs : List Char) : List Char :=
  let mark := quoteMark cs
  mark :: cs.flatMap (escaped mark) ++ [mark]

/-- How a byte is written between quotes of the kind `mark`. -/
def escapedByte (mark : Char) (b : UInt8) : List Char :=
  if b < 0x7f then escaped mark (Char.ofNat b.toNat) else '\\' :: 'x' :: hexDigits 2 b.toNat

/-- Bytes between quotes, behind a letter that tells them from a text. -/
def quotedBytes (bs : List UInt8) : List Char :=
  let mark := quoteMark (bs.map fun b => Char.ofNat b.toNat)
  'b' :: mark :: bs.flatMap (escapedByte mark) ++ [mark]

end InstrTable.Text

namespace InstrTable

/-- A text between quotes, with its unprintable characters escaped. -/
def quotedText (s : String) : String := String.ofList (Text.quoted s.toList)

/-- A list of texts, each quoted, between brackets. -/
def quotedList (ss : List String) : String := "[" ++ ", ".intercalate (ss.map quotedText) ++ "]"

end InstrTable
