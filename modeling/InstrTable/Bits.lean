/-!
Fields of bits in integers of any size. A negative integer has infinitely many
leading ones.
-/

namespace InstrTable

/-- A field that would start or end at a negative place. -/
inductive BitsError where
  | negativeAmount
  deriving DecidableEq, Repr

def BitsError.message : BitsError → String
  | .negativeAmount => "negative shift count"

/-- How large integers may become: the most digits that one may have. -/
class Capacity where
  digits : Nat

/-- An integer has fewer than `2 ^ 63` bytes: 24 in front and four for each digit. -/
instance : Capacity := ⟨(1 <<< 63 - 25) / 4⟩

/-- An integer for which there is no room. -/
inductive CapacityError where
  | tooManyDigits
  deriving DecidableEq, Repr

def CapacityError.message : CapacityError → String
  | .tooManyDigits => "too many digits in integer"

namespace Bits

/-- The digits that `n` bits take. A digit holds thirty of them. -/
def digits (n : Nat) : Nat := (n + 29) / 30

/-- Ones in the `width` places from `pos` upwards. -/
def mask (pos width : Nat) : Nat := ((1 <<< width) - 1) <<< pos

/-- `value` with the `width` places from `pos` upwards replaced by the low places
of `field`. -/
def set (value : Int) (pos width : Nat) (field : Int) : Int :=
  let unit : Int := (1 <<< pos : Nat)
  let size : Int := (1 <<< width : Nat)
  value - value / unit % size * unit + field % size * unit

end Bits

/-- The mask of a field. -/
def fieldMask (pos width : Int) : Except BitsError Nat :=
  if 0 ≤ pos ∧ 0 ≤ width then .ok (Bits.mask pos.toNat width.toNat)
  else .error .negativeAmount

/-- An integer with a field of it overwritten. -/
def setField (value pos width field : Int) : Except BitsError Int :=
  if 0 ≤ pos ∧ 0 ≤ width then .ok (Bits.set value pos.toNat width.toNat field)
  else .error .negativeAmount

/-- Names and places of fields, as in `Rd[15:12]`. The places of a field of no
width end below their start. -/
def fieldLayout (fields : List (String × Int × Int)) : String :=
  " ".intercalate <| fields.map fun (name, lsb, width) => s!"{name}[{lsb + width - 1}:{lsb}]"

end InstrTable
