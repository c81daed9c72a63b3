import InstrTable.Diagnostic

/-!
Byte opcodes: prefixes, an escape map, one opcode byte, and what follows it. They
are described by components, either legacy ones or those of a vector prefix.
-/

namespace InstrTable

/-- The class of an opcode's prefix or escape. -/
inductive PrefixClass where
  | none
  | threeDNow
  | vex
  | xop
  | evex
  | fpu
  deriving DecidableEq, Repr

namespace PrefixClass

def name : PrefixClass → String
  | .none => ""
  | .threeDNow => "3DNOW"
  | .vex => "VEX"
  | .xop => "XOP"
  | .evex => "EVEX"
  | .fpu => "FPU"

def isVector : PrefixClass → Bool
  | .vex => true
  | .xop => true
  | .evex => true
  | _ => false

end PrefixClass

/-- What the components of an opcode say. A text is empty where they say nothing. -/
structure ByteOpcode where
  text : String := ""
  prefixClass : PrefixClass := .none
  /-- How the register of the prefix is used: NDS, NDD or DDS. -/
  vectorOperand : String := ""
  /-- LIG, 128, 256 or 512. -/
  vectorLength : String := ""
  /-- WIG, W0 or W1. -/
  width : String := ""
  /-- The prefix bytes in hexadecimal, or 9B in front of an FPU opcode. -/
  mandatory : String := ""
  /-- The escape bytes in hexadecimal, or M8 or M9. -/
  escapeMap : String := ""
  /-- The opcode byte as two upper-case hexadecimal digits. -/
  opcode : String := ""
  /-- The letter r, or a digit from 0 to 7. -/
  modrm : String := ""
  embedsRegister : Bool := false
  /-- Bits of all immediates together. -/
  immediateWidth : Nat := 0
  displacementWidth : Nat := 0
  addressSizeOverride : Bool := false
  deriving DecidableEq, Repr

namespace ByteOpcode

def hexDigit? (c : Char) : Option Nat :=
  if '0' ≤ c ∧ c ≤ '9' then some (c.toNat - '0'.toNat)
  else if 'A' ≤ c ∧ c ≤ 'F' then some (c.toNat - 'A'.toNat + 10)
  else if 'a' ≤ c ∧ c ≤ 'f' then some (c.toNat - 'a'.toNat + 10)
  else none

/-- The opcode byte as a number. -/
def opcodeValue? (op : ByteOpcode) : Option Nat :=
  if op.opcode.isEmpty then none
  else (op.opcode.toList.mapM hexDigit?).map (·.foldl (fun n d => 16 * n + d) 0)

/-- The digit that extends the opcode. -/
def modrmDigit? (op : ByteOpcode) : Option Nat :=
  match op.modrm.toList with
  | [c] => if '0' ≤ c ∧ c ≤ '9' then some (c.toNat - '0'.toNat) else none
  | _ => none

/-- Applies a step to each of a list of components, and collects what it reports. -/
def run {α : Type} (step : ByteOpcode → α → ByteOpcode × List Diagnostic)
    (op : ByteOpcode) (components : List α) : ByteOpcode × List Diagnostic :=
  components.foldl
    (fun (op, ds) component =>
      let (op, ds') := step op component
      (op, ds ++ ds'))
    (op, [])

end ByteOpcode

end InstrTable
