import InstrTable.Text.Piece

/-!
Decimal digits of every script, and the numbers they spell.
-/

namespace InstrTable.Text

/-- The zero of every script's decimal digits. The other nine follow it in order. -/
def decimalZeros : List Nat :=
  [0x30, 0x660, 0x6F0, 0x7C0, 0x966, 0x9E6, 0xA66, 0xAE6, 0xB66, 0xBE6, 0xC66, 0xCE6, 0xD66, 0xDE6,
   0xE50, 0xED0, 0xF20, 0x1040, 0x1090, 0x17E0, 0x1810, 0x1946, 0x19D0, 0x1A80, 0x1A90, 0x1B50,
   0x1BB0, 0x1C40, 0x1C50, 0xA620, 0xA8D0, 0xA900, 0xA9D0, 0xA9F0, 0xAA50, 0xABF0, 0xFF10,
   0x104A0, 0x10D30, 0x11066, 0x110F0, 0x11136, 0x111D0, 0x112F0, 0x11450, 0x114D0, 0x11650,
   0x116C0, 0x11730, 0x118E0, 0x11950, 0x11C50, 0x11D50, 0x11DA0, 0x16A60, 0x16AC0, 0x16B50,
   0x1D7CE, 0x1D7D8, 0x1D7E2, 0x1D7EC, 0x1D7F6, 0x1E140, 0x1E2F0, 0x1E950, 0x1FBF0]

/-- Value of a decimal digit of any script. -/
def digit? (c : Char) : Option Nat :=
  (decimalZeros.find? fun z => z ≤ c.toNat && c.toNat ≤ z + 9).map (c.toNat - ·)

def isDigit (c : Char) : Bool := (digit? c).isSome

def natOfDigits (cs : List Char) : Nat :=
  cs.foldl (fun n c => 10 * n + (digit? c).getD 0) 0

/-- The number spelled by a non-empty run of decimal digits. There may be any number of digits: a
limit on them is a setting of the machine. -/
def nat? (cs : List Char) : Option Nat :=
  if !cs.isEmpty && cs.all isDigit then some (natOfDigits cs) else none

@[simp] theorem nat?_nil : nat? [] = none := rfl

/-- The number spelled by groups of digits with one underscore between neighbours. -/
def groupedNat? (cs : List Char) : Option Nat :=
  ((pieces '_' cs).mapM nat?).map fun _ => natOfDigits (cs.filter (· ≠ '_'))

/-- The integer spelled by grouped digits after an optional sign. -/
def int? : List Char → Option Int
  | '-' :: cs => (groupedNat? cs).map fun n => -(n : Int)
  | '+' :: cs => (groupedNat? cs).map Int.ofNat
  | cs => (groupedNat? cs).map Int.ofNat

/-- Decimal digits of a number, most significant first. -/
def digits (n : Nat) : List Char := Nat.toDigits 10 n

end InstrTable.Text
