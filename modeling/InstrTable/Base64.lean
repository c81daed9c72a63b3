/-!
Bytes that are written in base sixty-four: four characters for three bytes.
-/

namespace InstrTable.Base64

/-- Value of a character that counts. -/
def value? (c : Char) : Option Nat :=
  if 'A' ≤ c ∧ c ≤ 'Z' then some (c.toNat - 'A'.toNat)
  else if 'a' ≤ c ∧ c ≤ 'z' then some (c.toNat - 'a'.toNat + 26)
  else if '0' ≤ c ∧ c ≤ '9' then some (c.toNat - '0'.toNat + 52)
  else if c = '+' then some 62
  else if c = '/' then some 63
  else none

/-- The place in a group of four characters, and the bits of the last one that belong
to the next byte. -/
inductive Place where
  | first
  | second (bits : Nat)
  | third (bits : Nat)
  | fourth (bits : Nat)
  deriving DecidableEq, Repr

namespace Place

/-- How many equality signs close a group here. None do so in front of the third
character. -/
def closing? : Place → Option Nat
  | .third _ => some 2
  | .fourth _ => some 1
  | _ => none

/-- Takes a character: the byte that is complete with it, if one is, and the place
behind it. -/
def take (p : Place) (value : Nat) : Option UInt8 × Place :=
  match p with
  | .first => (none, .second value)
  | .second bits => (some (bits * 4 + value / 16).toUInt8, .third (value % 16))
  | .third bits => (some (bits * 16 + value / 4).toUInt8, .fourth (value % 4))
  | .fourth bits => (some (bits * 64 + value).toUInt8, .first)

end Place

/-- Reads the bytes from a place on, behind `signs` equality signs in a row. Characters
that do not count are skipped. The text ends with a whole group or with the signs that
close one, and nothing behind those is read. -/
def decodeFrom? (p : Place) (signs : Nat) : List Char → Option (List UInt8)
  | [] => if p = .first then some [] else none
  | c :: cs =>
    if c = '=' then
      match p.closing? with
      | some n => if n ≤ signs + 1 then some [] else decodeFrom? p (signs + 1) cs
      | none => decodeFrom? p signs cs
    else
      match value? c with
      | none => decodeFrom? p signs cs
      | some value =>
        let (byte, p) := p.take value
        (decodeFrom? p 0 cs).map (byte.toList ++ ·)

def decode? (cs : List Char) : Option (List UInt8) := decodeFrom? .first 0 cs

end InstrTable.Base64
