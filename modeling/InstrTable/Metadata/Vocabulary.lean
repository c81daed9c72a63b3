import InstrTable.Diagnostic
import InstrTable.Metadata
import InstrTable.Text.Digit
import InstrTable.Text.Word

/-!
Reading metadata. A key is looked up in the shortcuts, divided at its bars, and
given a meaning by the dictionaries; the x86 dialect has some keys of its own.
-/

namespace InstrTable

/-- The keys that the texts between the bars stand for. What precedes the last dot
before the first bar belongs to all of them. -/
def alternatives (key : String) : List String :=
  let cs := key.toList
  match Text.cutFirst? '|' cs with
  | none => [key]
  | some (front, rest) =>
    let (base, first) := match Text.cutLast? '.' front with
      | some (base, first) => (base ++ ['.'], first)
      | none => ([], front)
    (Text.pieces '|' (first ++ '|' :: rest)).map fun alt => String.ofList (base ++ alt)

/-- The keys that only x86 instructions have. -/
inductive X86Key where
  | vectorLengths (extension : String)
  | fpu
  | masking
  | zeroMasking
  | exceptions
  | rounding
  | privilege
  | broadcast
  | push
  | pop
  | top (n : Int)
  deriving DecidableEq, Repr

namespace X86Key

/-- The extension in a key that asks for its short vectors too. One line feed may
end the key. -/
def shortVectors? (key : String) : Option String :=
  match Text.before? ['-', 'V', 'L'] (Text.dropFinalNewline key.toList) with
  | none => none
  | some cs =>
    match Text.after? ['A', 'V', 'X', '5', '1', '2'] cs with
    | none => none
    | some rest =>
      if !rest.isEmpty && rest.all Text.isWordChar then some (String.ofList cs) else none

/-- The keys that need no dictionary. -/
def ofName? (key : String) (value : Setting) : Option X86Key :=
  match key with
  | "FPU" => some .fpu
  | "k" => some .masking
  | "kz" => some .zeroMasking
  | "sae" => some .exceptions
  | "er" => some .rounding
  | "PRIVILEGE" => some .privilege
  | "broadcast" => some .broadcast
  | "FPU_PUSH" => some .push
  | "FPU_POP" => some .pop
  | "FPU_TOP" =>
    match value with
    | .text "-1" => some (.top (-1))
    | .text "+1" => some (.top 1)
    | _ => none
  | _ => none

/-- The levels at which an instruction may run. -/
def isPrivilege (value : Setting) : Bool :=
  value ∈ [.text "L0", .text "L1", .text "L2", .text "L3"]

/-- How many registers an instruction pops off the stack of the FPU. -/
def popCount? : Setting → Option Int
  | .set => some 1
  | .text s => Text.int? s.toList

def apply (m : Metadata) (value : Setting) : X86Key → Metadata
  | .vectorLengths extension => (m.addExtension extension).addExtension "AVX512VL"
  | .fpu => m.setAttribute "FPU" (.flag true)
  | .masking => m.setAttribute "k" (.flag true)
  | .zeroMasking => (m.setAttribute "kz" (.flag true)).setAttribute "k" (.flag true)
  | .exceptions => m.setAttribute "sae" (.flag true)
  | .rounding => (m.setAttribute "er" (.flag true)).setAttribute "sae" (.flag true)
  | .privilege => m.setAttribute "PRIVILEGE" (.ofSetting value)
  | .broadcast => m.setAttribute "broadcast" (.ofSetting value)
  | .push => (m.setAttribute "FPU" (.flag true)).setAttribute "FPU_TOP" (.number (-1))
  | .pop =>
    let m := m.setAttribute "FPU" (.flag true)
    match popCount? value with
    | some n => m.setAttribute "FPU_TOP" (.number n)
    | none => m
  | .top n => (m.setAttribute "FPU" (.flag true)).setAttribute "FPU_TOP" (.number n)

def problems (value : Setting) : X86Key → List Diagnostic
  | .privilege => if isPrivilege value then [] else [.privilegeLevel value.shown]
  | .pop => if (popCount? value).isNone then [.popCount value.shown] else []
  | _ => []

end X86Key

/-- What a key means, given its value. A key may name both an extension and a
special register. -/
inductive Meaning where
  | operation
  | architecture
  | attribute (kind : AttributeKind)
  | dictionary (isExtension isRegister : Bool)
  | specific (key : X86Key)
  | unknown
  deriving DecidableEq, Repr

namespace Meaning

def kind : Meaning → AssignmentKind
  | .operation => .operation
  | .architecture => .architecture
  | .attribute _ => .attribute
  | .dictionary _ true => .specialRegister
  | .dictionary _ false => .extension
  | .specific _ => .specific
  | .unknown => .unknown

/-- The uses of a special register: read, written, both, undefined, cleared, set. -/
def isRegisterUse (value : Setting) : Bool :=
  value ∈ [.text "R", .text "W", .text "X", .text "U", .text "0", .text "1"]

/-- The operations between the bars of a value. -/
def operations (value : Setting) : List String :=
  match value with
  | .set => []
  | .text s => ((piecesOf '|' s).map trimmed).filter (· ≠ "")

def apply (m : Metadata) (key : String) (value : Setting) : Meaning → Metadata
  | .operation => { m with operations := m.operations ++ operations value }
  | .architecture => { m with arch := key }
  | .attribute kind => m.setAttribute key (.ofKind kind value)
  | .dictionary isExtension isRegister =>
    let m := if isExtension then m.addExtension key else m
    if isRegister then { m with specialRegisters := m.specialRegisters.insert key value } else m
  | .specific k => k.apply m value
  | .unknown => m

def problems (key : String) (value : Setting) : Meaning → List Diagnostic
  | .operation => if value = .set then [.operationWithoutName key value.shown] else []
  | .dictionary _ true => if isRegisterUse value then [] else [.specialRegisterUse value.shown]
  | .specific k => k.problems value
  | .unknown => [.unknownFlag key value.shown]
  | _ => []

end Meaning

/-- The keys that metadata may use: those of dictionaries, and maybe those of x86. -/
structure Vocabulary where
  dictionaries : Dictionaries
  knowsX86 : Bool
  deriving DecidableEq, Repr

namespace Vocabulary

/-- The keys of the dictionaries and of their dialect. -/
def ofDialect (d : Dictionaries) : Vocabulary := ⟨d, d.dialect = .x86⟩

/-- The keys of the dictionaries alone. -/
def plain (d : Dictionaries) : Vocabulary := ⟨d, false⟩

def x86Key? (v : Vocabulary) (key : String) (value : Setting) : Option X86Key :=
  if v.knowsX86 then
    match (X86Key.shortVectors? key).filter v.dictionaries.isExtension with
    | some extension => some (.vectorLengths extension)
    | none => X86Key.ofName? key value
  else none

def meaning (v : Vocabulary) (key : String) (value : Setting) : Meaning :=
  let d := v.dictionaries
  if key = "Op" then .operation
  else if d.isArchitecture key then .architecture
  else match d.attributes.get? key with
    | some a => .attribute a.kind
    | none =>
      let isExtension := d.isExtension key
      let isRegister := d.specialRegisters.contains key
      if isExtension || isRegister then .dictionary isExtension isRegister
      else match v.x86Key? key value with
        | some k => .specific k
        | none => .unknown

/-- Gives a key a value. -/
def assign (v : Vocabulary) (m : Metadata) (key : String) (value : Setting) (source : Source) :
    Metadata × List Diagnostic :=
  let meaning := v.meaning key value
  let m := meaning.apply m key value
  ({ m with assignments := m.assignments ++ [⟨key, value, source, meaning.kind⟩] },
    meaning.problems key value)

/-- Replaces a shortcut that is all of a key, or all behind its last dot. -/
def expand (v : Vocabulary) (key : String) : String × Source :=
  match v.dictionaries.shortcuts.get? key with
  | some shortcut => (shortcut.expansion, .shortcut)
  | none =>
    match Text.cutLast? '.' key.toList with
    | none => (key, .explicit)
    | some (base, last) =>
      match v.dictionaries.shortcuts.get? (String.ofList last) with
      | some shortcut => (String.ofList base ++ "." ++ shortcut.expansion, .shortcut)
      | none => (key, .explicit)

/-- A key and its value in a word of the metadata. -/
def splitWord (word : String) : String × Setting :=
  match Text.cutFirst? '=' word.toList with
  | some (key, value) => (String.ofList key, .text (String.ofList value))
  | none => (word, .set)

/-- Gives each of some keys the same value. -/
def assignAll (v : Vocabulary) (m : Metadata) (keys : List String) (value : Setting)
    (source : Source) : Metadata × List Diagnostic :=
  keys.foldl
    (fun (m, ds) key =>
      let (m, ds') := v.assign m key value source
      (m, ds ++ ds'))
    (m, [])

/-- Reads one word of the metadata. A question mark says that more is unknown. -/
def readWord (v : Vocabulary) (m : Metadata) (word : String) : Metadata × List Diagnostic :=
  if word = "?" then
    ({ m with
        unspecified := true
        assignments := m.assignments ++ [⟨"?", .set, .explicit, .unspecified⟩] }, [])
  else
    let (key, value) := splitWord word
    let (key, source) := v.expand key
    v.assignAll m (alternatives key) value source

/-- An x86 instruction that states no privilege level may run at all of them. -/
def settle (v : Vocabulary) (m : Metadata) : Metadata :=
  if v.knowsX86 then { m with attributes := m.attributes.insertNew "PRIVILEGE" (.text "L3") }
  else m

def read (v : Vocabulary) (s : String) : Metadata × List Diagnostic :=
  let (m, ds) := (wordsOf s).foldl
    (fun (m, ds) word =>
      let (m, ds') := v.readWord m word
      (m, ds ++ ds'))
    (({} : Metadata), [])
  (v.settle m, ds)

end Vocabulary

end InstrTable
