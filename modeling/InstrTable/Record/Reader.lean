import InstrTable.BitTemplate.Reader
import InstrTable.ByteOpcode.Vector
import InstrTable.Metadata.Vocabulary
import InstrTable.Operand.Arm
import InstrTable.Operand.X86
import InstrTable.Record.Consistency

/-!
Reading an instruction: its operands, its opcode, and its metadata, which are then
checked against each other. Only operands that cannot be split and an opcode for which
there is no room are errors.
-/

namespace InstrTable

/-- The grammar of the dictionaries' dialect. -/
def Grammar.ofDialect (d : Dictionaries) : Grammar :=
  match d.dialect with
  | .x86 => .x86 d.registers
  | .arm => .arm

namespace Dialect

/-- The access of an operand in place `i` that states none. -/
def fallbackAccess (dialect : Dialect) (i : Nat) : Option Access :=
  match dialect, i with
  | .x86, 0 => some .readWrite
  | .x86, _ + 1 => some .read
  | .arm, _ => none

/-- An encoding and the tuple type behind its hyphen, which only x86 has. -/
def splitEncoding (dialect : Dialect) (encoding : String) : String × String :=
  let cs := Text.trim encoding.toList
  match dialect, Text.cutFirst? '-' cs with
  | .x86, some (base, tupleType) => (String.ofList base, String.ofList tupleType)
  | _, _ => (String.ofList cs, "")

/-- The architecture of an instruction that names none. -/
def defaultArch (dialect : Dialect) (encoding : String) : String :=
  match dialect with
  | .x86 => "ANY"
  | .arm => if encoding = "T16" ∨ encoding = "T32" then "THUMB" else encoding

def readOpcode [Capacity] (dialect : Dialect) (text encoding : String) :
    Except CapacityError Opcode × List Diagnostic :=
  match dialect with
  | .x86 =>
    let (op, ds) := ByteOpcode.read text
    (.ok (.bytes op), ds)
  | .arm =>
    let (t, ds) := BitTemplate.build text encoding
    (t.map .bits, ds)

end Dialect

/-- What the problems of an entry are headed by. -/
def Entry.owner (entry : Entry) : String := trimmedEnd s!"{entry.name} {entry.operands}"

/-- Why an instruction cannot be read. -/
inductive RecordError where
  | operands (e : SplitError)
  | opcode (e : CapacityError)
  deriving DecidableEq, Repr

namespace RecordError

def message : RecordError → String
  | .operands e => e.message
  | .opcode e => e.message

/-- Whether an instruction is written wrongly. -/
def isSyntax : RecordError → Bool
  | .operands _ => true
  | .opcode _ => false

end RecordError

namespace Record

/-- Reads up to the brace that closes a decoration, if no other opens before it. -/
def takeDecoration? : List Char → Option (List Char × List Char)
  | [] => none
  | c :: cs =>
    if c = '}' then some ([], cs)
    else if c = '{' then none
    else (takeDecoration? cs).map fun (inner, rest) => (c :: inner, rest)

theorem takeDecoration?_length {cs inner rest : List Char}
    (h : takeDecoration? cs = some (inner, rest)) : rest.length < cs.length := by
  induction cs generalizing inner rest with
  | nil => simp [takeDecoration?] at h
  | cons c cs ih =>
    simp only [takeDecoration?] at h
    split at h
    · simp at h
      simp [h]
    · split at h
      · simp at h
      · simp at h
        obtain ⟨inner', h, _⟩ := h
        have := ih h
        simp
        omega

/-- Removes the innermost braces with what is in them, and says what that was. -/
def takeDecorations : List Char → List Char × List (List Char)
  | [] => ([], [])
  | c :: cs =>
    match h : if c = '{' then takeDecoration? cs else none with
    | some (inner, rest) =>
      have shorter : rest.length < cs.length := by
        split at h
        · exact takeDecoration?_length h
        · exact nomatch h
      let (kept, taken) := takeDecorations rest
      (kept, inner :: taken)
    | none =>
      let (kept, taken) := takeDecorations cs
      (c :: kept, taken)
termination_by cs => cs.length
decreasing_by
  · exact Nat.lt_succ_of_lt shorter
  · exact Nat.lt_succ_self _

/-- Reads operand tokens from place `i` on. One that has no form is left out. -/
def readTokens (d : Dictionaries) (i : Nat) :
    List String → Except SplitError (List Operand) × List Diagnostic
  | [] => (.ok [], [])
  | token :: tokens =>
    match (Grammar.ofDialect d).read token (d.dialect.fallbackAccess i) with
    | (.error e, ds) => (.error e, ds)
    | (.ok operand, ds) =>
      let (rest, ds') := readTokens d (i + 1) tokens
      (rest.map (operand.toList ++ ·), ds ++ ds')

/-- Reads a list of operands. -/
def readList (d : Dictionaries) (s : String) :
    Except SplitError (List Operand) × List Diagnostic :=
  match splitTopLevel (some ',') s with
  | .error e => (.error e, [])
  | .ok tokens => readTokens d 0 tokens

/-- The metadata that the broadcast sizes of operands set. -/
def broadcasts (operands : List Operand) : List (String × Setting) :=
  (operands.filter (·.broadcast ≠ 0)).map fun op =>
    ("broadcast", .text (String.ofList (Text.digits op.broadcast)))

/-- Reads a list of operands and the metadata that is written among them. In x86
it stands in braces. -/
def readOperands (d : Dictionaries) (s : String) :
    Except SplitError (List Operand × List (String × Setting)) × List Diagnostic :=
  match d.dialect with
  | .x86 =>
    let (kept, taken) := takeDecorations s.toList
    let (operands, ds) := readList d (String.ofList kept)
    let flags := taken.map fun key => (String.ofList key, Setting.set)
    (operands.map fun ops => (ops, flags ++ broadcasts ops), ds)
  | .arm =>
    let (operands, ds) := readList d s
    (operands.map fun ops => (ops, []), ds)

/-- Gives the immediates of bit templates the widths of their fields. -/
def complete (opcode : Opcode) (operand : Operand) : Operand :=
  match opcode, operand.immediate? with
  | .bits t, some i =>
    let width := t.fieldWidth i.name
    if width = 0 then operand else operand.withImmediateWidth width
  | _, _ => operand

/-- Adds the metadata that was written among the operands. -/
def decorate (v : Vocabulary) (m : Metadata) (decorations : List (String × Setting)) :
    Metadata × List Diagnostic :=
  decorations.foldl
    (fun (m, ds) (key, value) =>
      let (m, ds') := v.assign m key value .explicit
      (m, ds ++ ds'))
    (m, [])

/-- The record of an entry, once its operands and its opcode are read. What was reported on the
way comes first in its diagnostics. -/
def assemble (d : Dictionaries) (entry : Entry) (aliasOf : String) (operands : List Operand)
    (decorations : List (String × Setting)) (opcode : Opcode) (reports : List Diagnostic) :
    Record :=
  let (encoding, tupleType) := d.dialect.splitEncoding entry.encoding
  let operands := operands.map (complete opcode)
  let vocabulary := Vocabulary.ofDialect d
  let (metadata, ds) := vocabulary.read entry.metadata
  let (metadata, ds') := decorate vocabulary metadata decorations
  { name := entry.name
    aliasOf
    arch := if metadata.arch = "" then d.dialect.defaultArch encoding else metadata.arch
    encoding
    tupleType
    operands
    operandsText := trimmed entry.operands
    opcode
    opcodeText := entry.opcode
    metadata
    diagnostics :=
      ⟨entry.owner, reports ++ ds ++ ds' ++ problems operands encoding opcode entry.opcode⟩ }

/-- Reads an instruction with one name. Its problems are listed even where it
cannot be read. -/
def read [Capacity] (d : Dictionaries) (entry : Entry) (aliasOf : String) :
    Except RecordError Record × Diagnostics :=
  match readOperands d entry.operands with
  | (.error e, ds) => (.error (.operands e), ⟨entry.owner, ds⟩)
  | (.ok (operands, decorations), ds) =>
    match d.dialect.readOpcode entry.opcode (d.dialect.splitEncoding entry.encoding).1 with
    | (.error e, ds') => (.error (.opcode e), ⟨entry.owner, ds ++ ds'⟩)
    | (.ok opcode, ds') =>
      let r := assemble d entry aliasOf operands decorations opcode (ds ++ ds')
      (.ok r, r.diagnostics)

end Record

end InstrTable
