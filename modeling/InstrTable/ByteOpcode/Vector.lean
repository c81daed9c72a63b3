import InstrTable.ByteOpcode.Legacy

/-!
Opcodes with a vector prefix. The prefix has parts with dots between them; the
components of the body follow it. No part depends on another.
-/

namespace InstrTable

namespace Vector

/-- One part of a vector prefix. -/
inductive Part where
  | prefixClass (p : PrefixClass)
  | operand (use : String)
  | length (bits : String)
  | noMandatory
  | mandatory (byte : String)
  | escapeMap (bytes : String)
  | width (w : String)
  deriving DecidableEq, Repr

namespace Part

def prefixClass? : String → Option PrefixClass
  | "VEX" => some .vex
  | "XOP" => some .xop
  | "EVEX" => some .evex
  | _ => none

/-- The vector length that a part stands for. -/
def length? : String → Option String
  | "LIG" => some "LIG"
  | "128" => some "128"
  | "L0" => some "128"
  | "LZ" => some "128"
  | "256" => some "256"
  | "L1" => some "256"
  | "512" => some "512"
  | _ => none

def ofComponent? (component : String) : Option Part :=
  match prefixClass? component with
  | some p => some (.prefixClass p)
  | none =>
    if component ∈ ["NDS", "NDD", "DDS"] then some (.operand component)
    else match length? component with
      | some bits => some (.length bits)
      | none =>
        if component = "P0" then some .noMandatory
        else if component ∈ ["66", "F2", "F3"] then some (.mandatory component)
        else if component ∈ ["0F", "0F3A", "0F38", "M8", "M9"] then some (.escapeMap component)
        else if component ∈ ["WIG", "W0", "W1"] then some (.width component)
        else none

def name : Part → String
  | .prefixClass _ => "prefix"
  | .operand _ => "vvvv"
  | .length _ => "vector-length"
  | .noMandatory => "no-mandatory-prefix"
  | .mandatory _ => "mandatory-prefix"
  | .escapeMap _ => "escape-map"
  | .width _ => "width"

def apply (op : ByteOpcode) : Part → ByteOpcode
  | .prefixClass p => { op with prefixClass := p }
  | .operand use => { op with vectorOperand := use }
  | .length bits => { op with vectorLength := bits }
  | .noMandatory => op
  | .mandatory byte => { op with mandatory := byte }
  | .escapeMap bytes => { op with escapeMap := bytes }
  | .width w => { op with width := w }

end Part

/-- A component behind a vector prefix. -/
inductive Token where
  | opcode (byte : String)
  | modrm (field : Char)
  | immediate (bits : Nat)
  deriving DecidableEq, Repr

namespace Token

def isHexDigit (c : Char) : Bool := (ByteOpcode.hexDigit? c).isSome

/-- Two hexadecimal digits, in upper case. One line feed may follow them. -/
def byte? (component : String) : Option String :=
  match Text.dropFinalNewline component.toList with
  | [c, d] =>
    if isHexDigit c && isHexDigit d then some (String.ofList [c.toUpper, d.toUpper]) else none
  | _ => none

def immediate? (component : String) : Option Nat :=
  if component ∈ ["ib", "iw", "id", "iq", "/is4"] then immediateSize? component else none

def ofComponent? (component : String) : Option Token :=
  match byte? component with
  | some byte => some (.opcode byte)
  | none =>
    match modrmComponent? component with
    | some field => some (.modrm field)
    | none => (immediate? component).map .immediate

def name : Token → String
  | .opcode _ => "opcode"
  | .modrm _ => "modrm"
  | .immediate _ => "immediate"

def apply (op : ByteOpcode) : Token → ByteOpcode
  | .opcode byte => { op with opcode := byte }
  | .modrm field => { op with modrm := field.toString }
  | .immediate bits => { op with immediateWidth := op.immediateWidth + bits }

end Token

/-- Reads one more part of the prefix. -/
def partStep (op : ByteOpcode) (component : String) : ByteOpcode × List Diagnostic :=
  match Part.ofComponent? component with
  | some part => (part.apply op, [])
  | none => (op, [.unknownComponent op.text component])

/-- Reads one more component of the body. -/
def bodyStep (op : ByteOpcode) (component : String) : ByteOpcode × List Diagnostic :=
  match Token.ofComponent? component with
  | some token => (token.apply op, [])
  | none => (op, [.unknownOpcodeComponent op.text component])

/-- Whether a text begins with a vector prefix. -/
def isPrefixed (text : String) : Bool :=
  ["VEX.", "XOP.", "EVEX."].any fun start => (Text.after? start.toList text.toList).isSome

end Vector

/-- The sets of components that a component is classified by. -/
inductive ComponentSet where
  | legacy
  | vectorPrefix
  | vectorBody
  deriving DecidableEq, Repr

/-- The name of what a component does after the ones that made `op`, if it does
anything. -/
def ComponentSet.classify (op : ByteOpcode) (component : String) : ComponentSet → Option String
  | .legacy => Legacy.classify op component
  | .vectorPrefix => (Vector.Part.ofComponent? component).map Vector.Part.name
  | .vectorBody => (Vector.Token.ofComponent? component).map Vector.Token.name

namespace ByteOpcode

/-- Reads all components of an opcode. -/
def readComponents (text : String) : ByteOpcode × List Diagnostic :=
  let op : ByteOpcode := { text }
  if Vector.isPrefixed text then
    match wordsOf text with
    | [] => (op, [])
    | first :: body =>
      let (op, ds) := run Vector.partStep op (piecesOf '.' first)
      let (op, ds') := run Vector.bodyStep op body
      (op, ds ++ ds')
  else run Legacy.step op (wordsOf text)

/-- When no opcode follows the escape `0F 01`, its last byte is the opcode. -/
def settle (op : ByteOpcode) : ByteOpcode :=
  if op.opcode = "" ∧ op.escapeMap = "0F01" then { op with opcode := "01", escapeMap := "0F" }
  else op

/-- Reads an opcode. One without an opcode byte is reported. -/
def read (text : String) : ByteOpcode × List Diagnostic :=
  let (op, ds) := readComponents text
  let op := op.settle
  (op, ds ++ if op.opcode = "" then [.noOpcode text] else [])

end ByteOpcode

end InstrTable
