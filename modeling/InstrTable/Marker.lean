import InstrTable.Text.Blank
import InstrTable.Text.Digit

/-!
Markers that stand for a number of bits: immediates, displacements, and relative
targets.
-/

namespace InstrTable

/-- Bits of an immediate marker. -/
def immediateSize? : String → Option Nat
  | "1" => some 8
  | "i4" => some 4
  | "is4" => some 4
  | "/is4" => some 4
  | "ib" => some 8
  | "iw" => some 16
  | "id" => some 32
  | "iq" => some 64
  | _ => none

/-- Bits of a displacement marker. -/
def displacementSize? : String → Option Nat
  | "cb" => some 8
  | "cd" => some 32
  | _ => none

/-- Bits of a relative target such as `rel8`. One line feed may follow it. -/
def relativeSize? (marker : String) : Option Nat :=
  (Text.after? ['r', 'e', 'l'] (Text.dropFinalNewline marker.toList)).bind Text.nat?

end InstrTable
