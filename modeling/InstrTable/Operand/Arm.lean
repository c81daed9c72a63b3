import InstrTable.KnownField
import InstrTable.Operand.Grammar

/-!
The ARM operands: a memory operand in brackets, an immediate after a hash sign, or
a register field of the opcode. Each may state a sign, and each but the first a
restriction.
-/

namespace InstrTable

namespace Operand.Arm

/-- Where a restriction such as `!=PC` begins. -/
def isRestriction : List Char → Bool
  | '=' :: '=' :: _ => true
  | '!' :: '=' :: _ => true
  | '>' :: '=' :: _ => true
  | '<' :: '=' :: _ => true
  | '*' :: _ => true
  | _ => false

/-- A name and the restriction that follows it, which may be empty. -/
def splitRestriction : List Char → List Char × List Char
  | [] => ([], [])
  | c :: cs =>
    if isRestriction (c :: cs) then ([], c :: cs)
    else
      let (name, restriction) := splitRestriction cs
      (c :: name, restriction)

/-- Takes the mark for either sign off the front. -/
def takeSign (cs : List Char) : Bool × List Char :=
  match Text.after? ['+', '/', '-'] cs with
  | some rest => (true, rest)
  | none => (false, cs)

def shiftOperators : List String := ["SOP", "LSL", "LSR", "ASR", "ROR", "RRX"]

/-- Takes a shift operator and the space behind it off the front. -/
def takeShift (cs : List Char) : String × List Char :=
  let found := shiftOperators.findSome? fun op =>
    (Text.after? (op.toList ++ [' ']) cs).map fun rest => (op, rest)
  found.getD ("", cs)

/-- Takes a mark for write-back off the end. -/
def takeWriteback (cs : List Char) : Bool × List Char :=
  match Text.before? ['{', '!', '}'] cs with
  | some rest => (true, rest)
  | none =>
    match Text.before? ['!'] cs with
    | some rest => (true, rest)
    | none => (false, cs)

/-- Whether a component of a memory operand may be subtracted. -/
def isSigned (component : String) : Bool :=
  (takeSign (component.toList.dropWhile (· = '#'))).1

/-- Reads a memory operand that begins with a bracket. -/
def memory (alt : String) : Except SplitError (Option MemoryForm) × List Diagnostic :=
  let (writeback, cs) := takeWriteback alt.toList
  match inside? '[' ']' cs with
  | none => (.ok none, [.unknownMemory alt])
  | some inner =>
    let name := String.ofList (Text.trim inner)
    match splitTopLevel (some ',') name with
    | .error e => (.error e, [])
    | .ok components =>
      (.ok (some { name, writeback, components, signed := components.any isSigned }), [])

def immediate (cs : List Char) (restriction : String) : ImmediateForm :=
  let (signed, name) := takeSign cs
  { name := String.ofList name, restriction, signed }

/-- The kind of a register is the first letter of its field, in lower case. -/
def register? (cs : List Char) (restriction : String) : Option RegisterForm :=
  let (signed, name) := takeSign cs
  (knownField? (String.ofList name)).map fun field =>
    { name := String.ofList name, kind := String.ofList ((name.take 1).map Char.toLower),
      restriction, isList := field.isList, signed }

def classify (alt : String) : Except SplitError (Option Form) × List Diagnostic :=
  if alt.toList.head? = some '[' then
    let (form, ds) := memory alt
    (form.map (·.map .memory), ds)
  else
    let (name, restriction) := splitRestriction alt.toList
    let restriction := String.ofList restriction
    match name with
    | '#' :: cs => (.ok (some (.immediate (immediate cs restriction))), [])
    | cs => (.ok ((register? cs restriction).map .register), [])

def fieldAccess (field : KnownField) : Option Access :=
  match field.read, field.write with
  | true, true => some .readWrite
  | true, false => some .read
  | false, true => some .write
  | false, false => none

/-- The access of the first register's field. -/
def access (forms : List Form) (fallback : Option Access) : Option Access :=
  match forms.findSome? Form.register? with
  | some r => (knownField? r.name).bind fieldAccess
  | none => fallback

end Operand.Arm

/-- A name and its restriction, as in `Rn!=PC`. -/
def splitRestriction (s : String) : String × String :=
  let (name, restriction) := Operand.Arm.splitRestriction s.toList
  (String.ofList name, String.ofList restriction)

/-- The grammar of ARM operands, which have no alternatives. -/
def Grammar.arm : Grammar where
  takeShift := Operand.Arm.takeShift
  alternatives core := .ok [core]
  classify := Operand.Arm.classify
  access := Operand.Arm.access

end InstrTable
