import InstrTable.BitTemplate
import InstrTable.ByteOpcode
import InstrTable.Metadata
import InstrTable.Operand
import InstrTable.Text.Column

/-!
Instruction records: one variant of one instruction, and how it is listed.
-/

namespace InstrTable

inductive Opcode where
  | bytes (op : ByteOpcode)
  | bits (t : BitTemplate)
  deriving DecidableEq, Repr

namespace Opcode

def bytes? : Opcode → Option ByteOpcode
  | .bytes op => some op
  | .bits _ => none

def bits? : Opcode → Option BitTemplate
  | .bytes _ => none
  | .bits t => some t

end Opcode

structure Record where
  name : String
  /-- The first of the names that the instruction was given, unless `name` is it. -/
  aliasOf : String := ""
  arch : String
  encoding : String
  tupleType : String := ""
  operands : List Operand
  operandsText : String
  opcode : Opcode
  opcodeText : String
  metadata : Metadata
  diagnostics : Diagnostics
  deriving DecidableEq, Repr

namespace Record

/-- The number of problems. -/
def invalid (r : Record) : Nat := r.diagnostics.count

/-- The prefix class of a byte opcode. -/
def prefixClass? (r : Record) : Option PrefixClass := r.opcode.bytes?.map (·.prefixClass)

def isImplicit (r : Record) : Bool := r.operands.any (·.implicit)

/-- The texts of the operands, by which variants are compared. -/
def signature (r : Record) : String := ", ".intercalate (r.operands.map (·.text))

def encodedImmediates (operands : List Operand) : Nat := operands.countP (·.isEncodedImmediate)

/-- The line that stands for a record. -/
def line (r : Record) : String := trimmedEnd s!"{r.name} {r.operandsText}"

/-- The line of a record in a table. A mark says that it has problems. -/
def tableLine (r : Record) : String :=
  let mark := if r.invalid = 0 then "" else " !"
  s!"{padEnd 40 r.line} {padEnd 6 r.encoding} {r.opcodeText}{mark}"

def operandLine (op : Operand) : String :=
  let forms := "/".intercalate (op.forms.map Form.label)
  let access := (op.access.map Access.letter).getD "-"
  let implicit := if op.implicit then " implicit" else ""
  let optional := if op.optional then " optional" else ""
  s!"   Operand {op.text}: {forms} access={access}{implicit}{optional}"

/-- A titled line, left out when there is nothing to say. -/
def listLine (title : String) (items : List String) : List String :=
  if items.isEmpty then [] else ["   " ++ title ++ ": " ++ " ".intercalate items]

def templateLines (t : BitTemplate) : List String :=
  [s!"   Layout: {t.layout}", s!"   Value:  0x{hexWord t.value} Mask: 0x{hexWord t.mask}"]

/-- All there is to say of a record, line by line. -/
def describe (r : Record) : List String :=
  let tupleType := if r.tupleType.isEmpty then "" else "-" ++ r.tupleType
  [r.line] ++
    (if r.aliasOf.isEmpty then [] else [s!"   Alias of: {r.aliasOf}"]) ++
    [s!"   Arch: {r.arch}  Encoding: {r.encoding}{tupleType}", s!"   Opcode: {r.opcodeText}"] ++
    (r.opcode.bits?.elim [] templateLines) ++
    r.operands.map operandLine ++
    listLine "Extensions" r.metadata.extensions ++
    listLine "Attributes" (r.metadata.attributes.entries.map fun (k, v) => s!"{k}={v.shown}") ++
    listLine "Special" (r.metadata.specialRegisters.entries.map fun (k, v) => s!"{k}={v.shown}") ++
    listLine "Operations" r.metadata.operations ++
    r.diagnostics.messages.map ("   Warning: " ++ ·)

end Record

end InstrTable
