import InstrTable.ByteOpcode
import InstrTable.Marker

/-!
Legacy opcodes. A byte may be a prefix, an escape, or the opcode; which of them it
is depends on what came before it.
-/

namespace InstrTable

/-- A ModRM component: `/r`, or `/0` to `/7`. One line feed may follow it. -/
def modrmComponent? (component : String) : Option Char :=
  match Text.dropFinalNewline component.toList with
  | ['/', c] => if c = 'r' ∨ ('0' ≤ c ∧ c ≤ '7') then some c else none
  | _ => none

namespace Legacy

/-- The class of a component, whatever came before it. -/
inductive Token where
  | rexW
  | byte (digits suffix : String)
  | modrm (field : Char)
  | immediate (bits : Nat)
  | displacement (bits : Nat)
  | other (text : String)
  deriving DecidableEq, Repr

namespace Token

def isHexDigit (c : Char) : Bool := ('0' ≤ c && c ≤ '9') || ('A' ≤ c && c ≤ 'F')

/-- Two upper-case hexadecimal digits, and `+r` or `+i` behind them. A line feed
may end them, and counts as part of the suffix. -/
def byte? (component : String) : Option (String × String) :=
  match component.toList with
  | c :: d :: suffix =>
    let mark := Text.dropFinalNewline suffix
    if isHexDigit c && isHexDigit d && (mark = [] || mark = ['+', 'r'] || mark = ['+', 'i']) then
      some (String.ofList [c, d], String.ofList suffix)
    else none
  | _ => none

def immediate? (component : String) : Option Nat :=
  if component ∈ ["ib", "iw", "id", "iq"] then immediateSize? component else none

def ofComponent (component : String) : Token :=
  if component = "REX.W" then .rexW
  else match byte? component with
    | some (digits, suffix) => .byte digits suffix
    | none =>
      match modrmComponent? component with
      | some field => .modrm field
      | none =>
        match immediate? component with
        | some bits => .immediate bits
        | none =>
          match displacementSize? component with
          | some bits => .displacement bits
          | none => .other component

end Token

/-- What a component does. -/
inductive Action where
  | setWide
  | addMandatory (byte : String)
  | addEscape (byte : String)
  | escape3DNow
  | placeOpcode (byte : String) (embedsRegister : Bool)
  | setModrm (field : Char)
  | addImmediate (bits : Nat)
  | setDisplacement (bits : Nat)
  deriving DecidableEq, Repr

namespace Action

def name : Action → String
  | .setWide => "rex.w"
  | .addMandatory _ => "mandatory-prefix"
  | .addEscape _ => "escape-map"
  | .escape3DNow => "3dnow"
  | .placeOpcode .. => "opcode"
  | .setModrm _ => "modrm"
  | .addImmediate _ => "immediate"
  | .setDisplacement _ => "displacement"

end Action

/-- A byte that is still a mandatory prefix. None comes after an escape. -/
def isMandatory (op : ByteOpcode) (byte : String) : Bool :=
  op.escapeMap = "" &&
    ((op.mandatory = "" && (byte = "66" || byte = "F2" || byte = "F3")) ||
      (op.mandatory = "66" && (byte = "F2" || byte = "F3")))

/-- A byte that is still part of the escape map. -/
def isEscape (op : ByteOpcode) (byte : String) : Bool :=
  (op.escapeMap = "" && byte = "0F") ||
    (op.escapeMap = "0F" && (byte = "01" || byte = "3A" || byte = "38"))

/-- What a component does after the ones that made `op`, if it does anything. -/
def action? (op : ByteOpcode) : Token → Option Action
  | .rexW => some .setWide
  | .byte digits suffix =>
    if suffix = "" then
      if isMandatory op digits then some (.addMandatory digits)
      else if isEscape op digits then some (.addEscape digits)
      else if op.escapeMap = "0F" && digits = "0F" then some .escape3DNow
      else some (.placeOpcode digits false)
    else some (.placeOpcode digits true)
  | .modrm field => if op.modrm = "" then some (.setModrm field) else none
  | .immediate bits => some (.addImmediate bits)
  | .displacement bits => if op.displacementWidth = 0 then some (.setDisplacement bits) else none
  | .other _ => none

def fpuEscapes : List String := ["D8", "D9", "DA", "DB", "DC", "DD", "DE", "DF"]

/-- Makes `byte` the opcode. The byte that was the opcode until now becomes an
escape after `0F AE`, a prefix or an escape of the FPU, or a mark of the address
size. A byte that can be none of these is reported. -/
def takeOpcode (op : ByteOpcode) (byte : String) : ByteOpcode × List Diagnostic :=
  if op.escapeMap = "0F" ∧ op.opcode = "AE" then
    ({ op with escapeMap := op.escapeMap ++ op.opcode, opcode := byte }, [])
  else if op.mandatory = "" ∧ op.opcode = "9B" then
    ({ op with mandatory := op.opcode, opcode := byte, prefixClass := .fpu }, [])
  else if op.escapeMap = "" ∧ op.opcode ∈ fpuEscapes then
    ({ op with escapeMap := op.opcode, opcode := byte, prefixClass := .fpu }, [])
  else if op.opcode = "" then ({ op with opcode := byte }, [])
  else if op.opcode = "67" then ({ op with addressSizeOverride := true, opcode := byte }, [])
  else ({ op with opcode := byte }, [.secondOpcode op.text op.opcode byte])

namespace Action

def apply (op : ByteOpcode) : Action → ByteOpcode × List Diagnostic
  | .setWide => ({ op with width := "W1" }, [])
  | .addMandatory byte => ({ op with mandatory := op.mandatory ++ byte }, [])
  | .addEscape byte => ({ op with escapeMap := op.escapeMap ++ byte }, [])
  | .escape3DNow => ({ op with prefixClass := .threeDNow }, [])
  | .placeOpcode byte embeds =>
    takeOpcode { op with embedsRegister := op.embedsRegister || embeds } byte
  | .setModrm field => ({ op with modrm := field.toString }, [])
  | .addImmediate bits => ({ op with immediateWidth := op.immediateWidth + bits }, [])
  | .setDisplacement bits => ({ op with displacementWidth := bits }, [])

end Action

/-- Reads one more component. -/
def step (op : ByteOpcode) (component : String) : ByteOpcode × List Diagnostic :=
  match action? op (.ofComponent component) with
  | some action => action.apply op
  | none => (op, [.unknownOpcodeComponent op.text component])

/-- The name of what a component does, if it does anything. -/
def classify (op : ByteOpcode) (component : String) : Option String :=
  (action? op (.ofComponent component)).map Action.name

end Legacy

end InstrTable
