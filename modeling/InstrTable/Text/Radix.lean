import InstrTable.Text.Blank
import InstrTable.Text.Digit

/-!
Numbers in a base of at most sixteen.
-/

namespace InstrTable.Text

/-- Value of a digit in a base of at most sixteen. -/
def digitIn? (base : Nat) (c : Char) : Option Nat :=
  let value :=
    if '0' ≤ c ∧ c ≤ '9' then c.toNat - '0'.toNat
    else if 'a' ≤ c ∧ c ≤ 'f' then c.toNat - 'a'.toNat + 10
    else if 'A' ≤ c ∧ c ≤ 'F' then c.toNat - 'A'.toNat + 10
    else 16
  if value < base then some value else none

/-- The number that digits spell, if there are any. -/
def natIn? (base : Nat) (cs : List Char) : Option Nat :=
  if cs.isEmpty then none
  else (cs.mapM (digitIn? base)).map (·.foldl (fun n d => base * n + d) 0)

/-- A decimal digit of any script in its common form. -/
def commonDigit (c : Char) : Char :=
  match digit? c with
  | some d => Nat.digitChar d
  | none => c

/-- Blanks that may stand around a number: all but the information separators. -/
def isMargin (c : Char) : Bool := isBlank c && !(0x1C ≤ c.toNat && c.toNat ≤ 0x1F)

/-- The digits of a number in a base behind the mark of the base, which may be missing. -/
def withoutMark (base : Nat) (cs : List Char) : List Char :=
  match base, cs with
  | 2, '0' :: 'b' :: ds => ds
  | 2, '0' :: 'B' :: ds => ds
  | 8, '0' :: 'o' :: ds => ds
  | 8, '0' :: 'O' :: ds => ds
  | 16, '0' :: 'x' :: ds => ds
  | 16, '0' :: 'X' :: ds => ds
  | _, cs => cs

/-- The integer that a text without underscores spells in a base: digits, in front of
them a sign and a mark of the base if one likes, and blanks around. -/
def intIn? (base : Nat) (cs : List Char) : Option Int :=
  let cs := ((cs.dropWhile isMargin).reverse.dropWhile isMargin).reverse.map commonDigit
  match cs with
  | '-' :: cs => (natIn? base (withoutMark base cs)).map fun n => -(n : Int)
  | '+' :: cs => (natIn? base (withoutMark base cs)).map Int.ofNat
  | cs => (natIn? base (withoutMark base cs)).map Int.ofNat

end InstrTable.Text
