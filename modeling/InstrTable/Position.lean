/-!
Positions counted from the start, or with a minus sign from the end.
-/

namespace InstrTable

/-- A position outside of what it points into. -/
inductive PositionError where
  | outsideText
  | outsideList
  deriving DecidableEq, Repr

def PositionError.message : PositionError → String
  | .outsideText => "string index out of range"
  | .outsideList => "list index out of range"

/-- Place of position `i` among `length` items: `-1` is the last of them. -/
def place? (length : Nat) (i : Int) : Option Nat :=
  let k := if i < 0 then i + length else i
  if 0 ≤ k ∧ k < length then some k.toNat else none

theorem place?_natCast {length i : Nat} (h : i < length) : place? length i = some i := by
  simp [place?]
  omega

end InstrTable
