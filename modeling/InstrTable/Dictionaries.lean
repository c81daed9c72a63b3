import InstrTable.Register
import InstrTable.Schema

/-!
The dictionaries of an instruction set, and the documents that hold them. Such a
document may hold the instructions too.
-/

namespace InstrTable

inductive Dialect where
  | x86
  | arm
  deriving DecidableEq, Repr

namespace Dialect

def name : Dialect → String
  | .x86 => "x86"
  | .arm => "arm"

def ofName? : String → Option Dialect
  | "x86" => some .x86
  | "arm" => some .arm
  | _ => none

end Dialect

/-- How the value of an attribute is read. -/
inductive AttributeKind where
  | flag
  | text
  | texts
  deriving DecidableEq, Repr

namespace AttributeKind

def name : AttributeKind → String
  | .flag => "flag"
  | .text => "string"
  | .texts => "string[]"

def ofName? : String → Option AttributeKind
  | "flag" => some .flag
  | "string" => some .text
  | "string[]" => some .texts
  | _ => none

end AttributeKind

/-- An extension and the extension that it builds on. -/
structure Extension where
  name : String
  base : String := ""
  deriving DecidableEq, Repr

structure Attribute where
  name : String
  kind : AttributeKind
  doc : String := ""
  deriving DecidableEq, Repr

/-- A special register and the register that it is a part of. -/
structure SpecialRegister where
  name : String
  group : String
  doc : String := ""
  deriving DecidableEq, Repr

/-- An abbreviation for a key of the metadata. -/
structure Shortcut where
  name : String
  expansion : String
  doc : String := ""
  deriving DecidableEq, Repr

structure Dictionaries where
  dialect : Dialect
  architectures : List String := []
  cpuLevels : List String := []
  extensions : Keyed Extension := .empty
  attributes : Keyed Attribute := .empty
  specialRegisters : Keyed SpecialRegister := .empty
  shortcuts : Keyed Shortcut := .empty
  registers : Keyed Register := .empty
  deriving DecidableEq, Repr

/-- One row of an instruction table. -/
structure Entry where
  name : String
  operands : String
  encoding : String
  opcode : String
  metadata : String
  deriving DecidableEq, Repr

namespace Entry

def fields (e : Entry) : List String := [e.name, e.operands, e.encoding, e.opcode, e.metadata]

def ofFields? : List String → Option Entry
  | [name, operands, encoding, opcode, metadata] =>
    some ⟨name, operands, encoding, opcode, metadata⟩
  | _ => none

end Entry

/-- Dictionaries with the instructions that use them. -/
structure Table where
  dictionaries : Dictionaries
  entries : List Entry
  deriving DecidableEq, Repr

/-- What is found wrong with a document, if anything is. -/
abbrev Validator := Document → Option String

/-- The table at `source` is unusable: its document was found wrong, or was not and has no
dictionaries or instructions all the same. -/
inductive TableError where
  | invalid (source message : String)
  | unreadable (source : String)
  deriving DecidableEq, Repr

def TableError.message : TableError → String
  | .invalid source message => s!"Invalid config file {source}: {message}"
  | .unreadable source => s!"Invalid config file {source}: unreadable"

namespace Table

open Schema in
/-- The shape of a table document. -/
def schema : Schema :=
  let anyText : Schema := .text [] false
  let someText : Schema := .text [] true
  .record
    [required "dialect" (.text ["x86", "arm"] false),
     optional "architectures" (.list anyText none),
     optional "cpu_levels" (.list (.record [required "name" anyText]) none),
     optional "extensions"
      (.list (.record [required "name" anyText, optional "from" anyText]) none),
     optional "attributes"
      (.list (.record [required "name" anyText,
        required "type" (.text ["flag", "string", "string[]"] false),
        optional "doc" anyText]) none),
     optional "special_regs"
      (.list (.record [required "name" anyText, optional "group" anyText,
        optional "doc" anyText]) none),
     optional "shortcuts"
      (.list (.record [required "name" someText, required "expand" someText,
        optional "doc" anyText]) none),
     optional "registers"
      (.table (.record [optional "kind" anyText, optional "any" anyText,
        required "names" (.list anyText none)])),
     optional "instructions" (.list (.list anyText (some 5)) none)]

/-- The validator that goes by the shape of a table document. -/
def validator : Validator := fun d => (schema.check d).map (·.fault.message)

end Table

namespace Extension

def ofDocument? (d : Document) : Option Extension := do
  return { name := ← (← d.field? "name").text?, base := ← d.textOr? "from" "" }

end Extension

namespace Attribute

def ofDocument? (d : Document) : Option Attribute := do
  return {
    name := ← (← d.field? "name").text?
    kind := ← AttributeKind.ofName? (← (← d.field? "type").text?)
    doc := ← d.textOr? "doc" "" }

end Attribute

namespace SpecialRegister

/-- A register that names no group is its own. -/
def ofDocument? (d : Document) : Option SpecialRegister := do
  let name ← (← d.field? "name").text?
  return { name, group := ← d.textOr? "group" name, doc := ← d.textOr? "doc" "" }

end SpecialRegister

namespace Shortcut

def ofDocument? (d : Document) : Option Shortcut := do
  return {
    name := ← (← d.field? "name").text?
    expansion := ← (← d.field? "expand").text?
    doc := ← d.textOr? "doc" "" }

end Shortcut

namespace RegisterClass

def ofDocument? (d : Document) : Option RegisterClass := do
  let kind ← match d.field? "kind" with
    | none => pure none
    | some k => some <$> k.scalar?
  let any ← match d.field? "any" with
    | none => pure ""
    | some s => if s.saysNothing then pure "" else s.text?
  let names ← match d.field? "names" with
    | none => pure []
    | some ns => ns.texts?
  return { kind, any, names }

/-- The register types of a document that maps their names to them. -/
def table? (d : Document) : Option (List (Scalar × RegisterClass)) := do
  (← d.map?).mapM fun e => (ofDocument? e.2).map fun c => (e.1, c)

end RegisterClass

namespace Dictionaries

/-- A table of items under their names. -/
def byName {α : Type} (name : α → String) (items : List α) : Keyed α :=
  .ofList (items.map fun x => (name x, x))

/-- Reads the dictionaries of a document. It fails on some documents that do not
have the shape of a table, and on none that has. -/
def read? (d : Document) : Option Dictionaries := do
  let registers ← match d.field? "registers" with
    | none => pure .empty
    | some types => registerTable <$> RegisterClass.table? types
  return {
    dialect := ← Dialect.ofName? (← (← d.field? "dialect").text?)
    architectures := ← (← d.itemsOf? "architectures").mapM Document.text?
    cpuLevels := ← (← d.itemsOf? "cpu_levels").mapM fun x => (x.field? "name").bind Document.text?
    extensions := byName (·.name) (← (← d.itemsOf? "extensions").mapM Extension.ofDocument?)
    attributes := byName (·.name) (← (← d.itemsOf? "attributes").mapM Attribute.ofDocument?)
    specialRegisters :=
      byName (·.name) (← (← d.itemsOf? "special_regs").mapM SpecialRegister.ofDocument?)
    shortcuts := byName (·.name) (← (← d.itemsOf? "shortcuts").mapM Shortcut.ofDocument?)
    registers }

def ofDocument (validate : Validator) (d : Document) (source : String) :
    Except TableError Dictionaries :=
  match validate d with
  | some message => .error (.invalid source message)
  | none =>
    match read? d with
    | some dictionaries => .ok dictionaries
    | none => .error (.unreadable source)

def isExtension (d : Dictionaries) (name : String) : Bool := d.extensions.contains name

def isArchitecture (d : Dictionaries) (name : String) : Bool := d.architectures.contains name

end Dictionaries

namespace Table

/-- Reads the instructions of a document. -/
def readEntries? (d : Document) : Option (List Entry) := do
  (← d.itemsOf? "instructions").mapM fun row => row.texts?.bind Entry.ofFields?

def entriesOf (validate : Validator) (d : Document) (source : String) :
    Except TableError (List Entry) :=
  match validate d with
  | some message => .error (.invalid source message)
  | none =>
    match readEntries? d with
    | some entries => .ok entries
    | none => .error (.unreadable source)

end Table

end InstrTable
