/-!
Problems that do not stop a reading. Each is noted against the instruction that
has it.
-/

namespace InstrTable

/-- One problem, by its cause. -/
inductive Diagnostic where
  | reversedBitRange (field opcode : String)
  | emptyField (opcode : String)
  | sizedAndSliced (field opcode : String)
  | bitCount (total : Nat) (opcode : String) (expected : Nat)
  | unknownComponent (opcode component : String)
  | unknownOpcodeComponent (opcode component : String)
  | secondOpcode (opcode first second : String)
  | noOpcode (opcode : String)
  | unknownOperand (alternative token : String)
  | unknownMemory (alternative : String)
  | implicitEncoded (token : String)
  | unknownFlag (key value : String)
  | operationWithoutName (key value : String)
  | specialRegisterUse (value : String)
  | privilegeLevel (value : String)
  | popCount (value : String)
  | immediatesWithoutEncoding (count : Nat) (encoding : String)
  | immediatesWithoutOpcode (count : Nat) (opcode : String)
  | vectorMemoryOperands (operands : List String)
  | immediateWithoutField (name opcode : String)
  | note (text : String)
  deriving DecidableEq, Repr

def Diagnostic.message : Diagnostic → String
  | .reversedBitRange field opcode => s!"Invalid bit range '{field}' in opcode '{opcode}'"
  | .emptyField opcode => s!"Empty field in opcode '{opcode}'"
  | .sizedAndSliced field opcode =>
    s!"Part '{field}' of opcode '{opcode}' contains both size and slice"
  | .bitCount total opcode expected =>
    s!"The number of bits '{total}' used by opcode '{opcode}' doesn't match {expected}"
  | .unknownComponent opcode component => s!"'{opcode}' Unhandled component {component}"
  | .unknownOpcodeComponent opcode component =>
    s!"'{opcode}' Unhandled opcode component {component}"
  | .secondOpcode opcode first second =>
    s!"'{opcode}' Multiple opcodes, have {first}, found {second}"
  | .noOpcode opcode => s!"Couldn't parse instruction's opcode '{opcode}'"
  | .unknownOperand alternative token => s!"Unhandled operand '{alternative}' in '{token}'"
  | .unknownMemory alternative => s!"Unknown memory operand '{alternative}'"
  | .implicitEncoded token =>
    s!"Implicit operand '{token}' must not be a memory or immediate operand"
  | .unknownFlag key value => s!"Unhandled flag {key}={value}"
  | .operationWithoutName key value => s!"Unhandled operation {key}={value}"
  | .specialRegisterUse value => s!"Special register must specify 'R|W|X|U|0|1', not {value}"
  | .privilegeLevel value => s!"Invalid privilege level '{value}'"
  | .popCount value => s!"Invalid FPU_POP count '{value}'"
  | .immediatesWithoutEncoding count encoding =>
    s!"Immediate(s) [{count}] missing in encoding: {encoding}"
  | .immediatesWithoutOpcode count opcode =>
    s!"Immediate(s) [{count}] not found in opcode: {opcode}"
  | .vectorMemoryOperands operands =>
    "Multiple vector memory operands: " ++ ", ".intercalate operands
  | .immediateWithoutField name opcode => s!"Immediate '{name}' has no field in opcode '{opcode}'"
  | .note text => text

/-- The problems of one instruction, in the order in which they were found. -/
structure Diagnostics where
  owner : String := ""
  entries : List Diagnostic := []
  deriving DecidableEq, Repr

namespace Diagnostics

def report (ds : Diagnostics) (d : Diagnostic) : Diagnostics :=
  { ds with entries := ds.entries ++ [d] }

def count (ds : Diagnostics) : Nat := ds.entries.length

/-- The text of a diagnostic of `owner`. Without an owner it stands alone. -/
def ownedBy (owner text : String) : String :=
  if owner.isEmpty then text else s!"{owner}: {text}"

def messages (ds : Diagnostics) : List String :=
  ds.entries.map fun d => ownedBy ds.owner d.message

@[simp] theorem count_report (ds : Diagnostics) (d : Diagnostic) :
    (ds.report d).count = ds.count + 1 := by
  simp [count, report]

@[simp] theorem length_messages (ds : Diagnostics) : ds.messages.length = ds.count := by
  simp [messages, count]

end Diagnostics

/-- The line that warns of a message. -/
def warningLine (message : String) : String := s!"Warning: {message}\n"

/-- The lines that warn of messages. -/
def warnings (messages : List String) : String := String.join (messages.map warningLine)

end InstrTable
