import InstrTable.Record

/-!
Consistency of an instruction across its operands, its encoding, and its opcode.
-/

namespace InstrTable

namespace Record

/-- Whether the letter for an immediate stands `count` times in a row in an encoding. -/
def hasImmediates (count : Nat) (encoding : String) : Bool :=
  Text.occursIn (List.replicate count 'I') encoding.toList

/-- Whether a word of an opcode begins like an immediate. -/
def beginsImmediate (word : String) : Bool :=
  match word.toList with
  | 'i' :: c :: _ => c = 'b' || c = 'w' || c = 'd' || c = 'q'
  | _ => false

/-- Every encoded immediate has a letter in the encoding and a word in the opcode,
and a vector indexes one operand at most. -/
def x86Problems (operands : List Operand) (encoding opcodeText : String) : List Diagnostic :=
  let count := encodedImmediates operands
  let vectors := operands.filter (·.isVectorMemory)
  (if hasImmediates count encoding then []
    else [.immediatesWithoutEncoding count encoding]) ++
  (if (wordsOf opcodeText).countP beginsImmediate = count then []
    else [.immediatesWithoutOpcode count opcodeText]) ++
  (if vectors.length ≤ 1 then [] else [.vectorMemoryOperands (vectors.map (·.text))])

/-- Every immediate has a field in the opcode. -/
def armProblems (operands : List Operand) (t : BitTemplate) (opcodeText : String) :
    List Diagnostic :=
  (operands.filterMap (·.immediate?)).filterMap fun i =>
    if t.hasField i.name then none else some (.immediateWithoutField i.name opcodeText)

def problems (operands : List Operand) (encoding : String) (opcode : Opcode)
    (opcodeText : String) : List Diagnostic :=
  match opcode with
  | .bytes _ => x86Problems operands encoding opcodeText
  | .bits t => armProblems operands t opcodeText

end Record

end InstrTable
