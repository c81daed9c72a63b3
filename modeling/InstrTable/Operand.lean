import InstrTable.Text.Blank
import InstrTable.Text.Piece

/-!
Operands of an instruction and the forms they may take.
-/

namespace InstrTable

inductive Access where
  | read
  | write
  | readWrite
  deriving DecidableEq, Repr

namespace Access

def letter : Access → String
  | .read => "R"
  | .write => "W"
  | .readWrite => "X"

def ofLetter? : String → Option Access
  | "R" => some .read
  | "W" => some .write
  | "X" => some .readWrite
  | _ => none

def reads : Access → Bool
  | .write => false
  | _ => true

def writes : Access → Bool
  | .read => false
  | _ => true

end Access

/-- A register, or a field that holds the number of one. -/
structure RegisterForm where
  name : String
  kind : String
  index : Option Int := none
  restriction : String := ""
  segment : String := ""
  isList : Bool := false
  signed : Bool := false
  deriving DecidableEq, Repr

/-- A place in memory. The size is zero if any will do. -/
structure MemoryForm where
  name : String
  size : Int := 0
  isOffset : Bool := false
  segment : String := ""
  vectorIndex : String := ""
  vectorIndexSize : Int := 0
  writeback : Bool := false
  components : List String := []
  signed : Bool := false
  deriving DecidableEq, Repr

/-- An immediate. A literal has a fixed value and is not encoded. -/
structure ImmediateForm where
  name : String
  width : Int := 0
  literal : Option Int := none
  restriction : String := ""
  signed : Bool := false
  deriving DecidableEq, Repr

/-- The target of a branch, relative to the instruction. -/
structure RelativeForm where
  name : String
  width : Int
  deriving DecidableEq, Repr

inductive Form where
  | register (r : RegisterForm)
  | memory (m : MemoryForm)
  | immediate (i : ImmediateForm)
  | relative (r : RelativeForm)
  deriving DecidableEq, Repr

namespace Form

def name : Form → String
  | .register r => r.name
  | .memory m => m.name
  | .immediate i => i.name
  | .relative r => r.name

/-- The word for a form in listings. -/
def label : Form → String
  | .register _ => "Register"
  | .memory _ => "Memory"
  | .immediate _ => "Immediate"
  | .relative _ => "Relative"

def register? : Form → Option RegisterForm
  | .register r => some r
  | _ => none

def memory? : Form → Option MemoryForm
  | .memory m => some m
  | _ => none

def immediate? : Form → Option ImmediateForm
  | .immediate i => some i
  | _ => none

def relative? : Form → Option RelativeForm
  | .relative r => some r
  | _ => none

/-- An immediate with a fixed value. -/
def isLiteral : Form → Bool
  | .immediate i => i.literal.isSome
  | _ => false

/-- A form with bits in the instruction other than a register's. -/
def isMemoryOrEncoded : Form → Bool
  | .memory _ => true
  | .immediate i => i.literal.isNone
  | _ => false

/-- A form that is read or written. -/
def isAccessed : Form → Bool
  | .register _ => true
  | .memory _ => true
  | _ => false

def withImmediateWidth (width : Int) : Form → Form
  | .immediate i => .immediate { i with width }
  | f => f

end Form

/-- An operand: its text without decorations, and the forms it may take. -/
structure Operand where
  text : String
  forms : List Form
  access : Option Access := none
  bitRange : Option (Nat × Nat) := none
  implicit : Bool := false
  optional : Bool := false
  broadcast : Nat := 0
  shift : String := ""
  forms_ne_nil : forms ≠ []
  deriving DecidableEq, Repr

/-- An operand must have a form. -/
inductive OperandError where
  | noForm (text : String)
  deriving DecidableEq, Repr

def OperandError.message : OperandError → String
  | .noForm text => s!"Operand '{text}' has no register, memory, immediate or relative form"

namespace Operand

def ofForms (text : String) (forms : List Form) (access : Option Access) :
    Except OperandError Operand :=
  if h : forms = [] then .error (.noForm text)
  else .ok { text, forms, access, forms_ne_nil := h }

def register? (op : Operand) : Option RegisterForm := op.forms.findSome? Form.register?

def memory? (op : Operand) : Option MemoryForm := op.forms.findSome? Form.memory?

def immediate? (op : Operand) : Option ImmediateForm := op.forms.findSome? Form.immediate?

def relative? (op : Operand) : Option RelativeForm := op.forms.findSome? Form.relative?

/-- The name of the first form. -/
def name (op : Operand) : String := (op.forms.head op.forms_ne_nil).name

def reads (op : Operand) : Bool := op.access.any Access.reads

def writes (op : Operand) : Bool := op.access.any Access.writes

/-- An immediate operand with bits in the instruction. -/
def isEncodedImmediate (op : Operand) : Bool := op.immediate?.any (·.literal.isNone)

/-- A memory operand that is indexed by a vector. -/
def isVectorMemory (op : Operand) : Bool := op.memory?.any (!·.vectorIndex.isEmpty)

def withImmediateWidth (width : Int) (op : Operand) : Operand :=
  { op with
    forms := op.forms.map (Form.withImmediateWidth width)
    forms_ne_nil := by simpa using op.forms_ne_nil }

/-- Whether the name of a memory operand tells more than its size. -/
def hasMemoryType (m : MemoryForm) : Bool :=
  let cs := Text.dropFinalNewline m.name.toList
  !m.vectorIndex.isEmpty || (Text.before? ['f', 'p'] cs).isSome ||
    (Text.before? ['i', 'n', 't'] cs).isSome

/-- The operand as it stands in a short signature: `r32/m`, `m`, `vm32x`. -/
def signature (op : Operand) : String :=
  match op.register?, op.memory? with
  | some r, some _ => r.name ++ "/m"
  | none, some m => if hasMemoryType m then m.name else "m"
  | _, none => op.text

end Operand

end InstrTable
