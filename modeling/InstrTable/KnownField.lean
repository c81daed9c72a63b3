/-!
Fields that bit templates use without a width of their own, and the word size of
each encoding.
-/

namespace InstrTable

/-- Default width of a field, and how an instruction uses the register it names. -/
structure KnownField where
  bits : Nat
  read : Bool := false
  write : Bool := false
  isList : Bool := false
  deriving DecidableEq, Repr

namespace KnownField

/-- A field that is no register. -/
def plain (bits : Nat) : KnownField := { bits }

def source : KnownField := { bits := 4, read := true }

def target : KnownField := { bits := 4, write := true }

def both : KnownField := { bits := 4, read := true, write := true }

def sourceList : KnownField := { source with isList := true }

def targetList : KnownField := { target with isList := true }

end KnownField

open KnownField in
def knownFields : List (String × KnownField) :=
  [("P", plain 1), ("U", plain 1), ("W", plain 1), ("S", plain 1), ("R", plain 1),
   ("J1", plain 1), ("J2", plain 1), ("SOP", plain 2),
   ("Cond", plain 4), ("Cn", plain 4), ("Cm", plain 4),
   ("Rd", target), ("Rd2", target), ("RdLo", target), ("RdHi", target), ("RdList", targetList),
   ("Rx", both), ("RxLo", both), ("RxHi", both),
   ("Rn", source), ("Rm", source), ("Ra", source), ("Rs", source), ("Rs2", source),
   ("RsList", sourceList),
   ("Dd", target), ("Dx", both), ("Dn", source), ("Dm", source),
   ("Sd", target), ("Sx", both), ("Sn", source), ("Sm", source),
   ("Vd", target), ("VdList", targetList), ("Vx", both),
   ("Vn", source), ("Vm", source), ("Vs", source), ("VsList", sourceList)]

def knownField? (name : String) : Option KnownField := knownFields.lookup name

/-- Bits of an instruction word of the given encoding. -/
def wordSize? : (encoding : String) → Option Nat
  | "T16" => some 16
  | "T32" => some 32
  | "A32" => some 32
  | "A64" => some 32
  | _ => none

end InstrTable
