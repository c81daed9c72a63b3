import InstrTable.Dictionaries
import InstrTable.Text.Blank
import InstrTable.Text.Piece

/-!
Metadata of an instruction: what its keys and values say, as they were written and
as they are understood.
-/

namespace InstrTable

/-- The value given to a key. A key without a value is set. -/
inductive Setting where
  | set
  | text (s : String)
  deriving DecidableEq, Repr

namespace Setting

/-- How a value is shown in a message. -/
def shown : Setting → String
  | .set => "True"
  | .text s => s

def text? : Setting → Option String
  | .set => none
  | .text s => some s

end Setting

/-- The value of an attribute, as its kind requires. -/
inductive AttributeValue where
  | flag (b : Bool)
  | text (s : String)
  | number (n : Int)
  | texts (ss : List String)
  deriving DecidableEq, Repr

namespace AttributeValue

def ofSetting : Setting → AttributeValue
  | .set => .flag true
  | .text s => .text s

/-- Whether a text is the word for a set flag, in letters of either case. -/
def isTrue (s : String) : Bool := s.toList.map Char.toUpper = ['T', 'R', 'U', 'E']

/-- The value of an attribute of the given kind. -/
def ofKind (kind : AttributeKind) (value : Setting) : AttributeValue :=
  match kind, value with
  | .flag, .set => .flag true
  | .flag, .text s => .flag (isTrue s)
  | .text, .set => .text "TRUE"
  | .text, .text s => .text s
  | .texts, .set => .texts ["TRUE"]
  | .texts, .text s => .texts (piecesOf '|' s)

/-- How a value is shown in a listing. -/
def shown : AttributeValue → String
  | .flag true => "True"
  | .flag false => "False"
  | .text s => s
  | .number n => toString n
  | .texts [s] => s!"({quotedText s},)"
  | .texts ss => "(" ++ ", ".intercalate (ss.map quotedText) ++ ")"

/-- A flag counts as the number one or zero. -/
def ofFlag (b : Bool) : Rat := if b then 1 else 0

/-- Whether a value is the one that a document holds. -/
def equals : AttributeValue → Document → Bool
  | .flag b, .scalar s => s.number? = some (ofFlag b)
  | .number n, .scalar s => s.number? = some n
  | .text s, .scalar t => t = .text s
  | .texts ss, d => d.texts? = some ss
  | _, _ => false

end AttributeValue

/-- What a key turned out to name. -/
inductive AssignmentKind where
  | extension
  | attribute
  | specialRegister
  | operation
  | architecture
  | specific
  | unspecified
  | unknown
  deriving DecidableEq, Repr

def AssignmentKind.name : AssignmentKind → String
  | .extension => "extension"
  | .attribute => "attribute"
  | .specialRegister => "special_reg"
  | .operation => "operation"
  | .architecture => "architecture"
  | .specific => "specific"
  | .unspecified => "unspecified"
  | .unknown => "unknown"

/-- Whether a key was written out or stood in a shortcut. -/
inductive Source where
  | explicit
  | shortcut
  deriving DecidableEq, Repr

def Source.name : Source → String
  | .explicit => "explicit"
  | .shortcut => "shortcut"

structure Assignment where
  key : String
  value : Setting
  source : Source
  kind : AssignmentKind
  deriving DecidableEq, Repr

/-- The metadata of an instruction. The assignments are kept as they were made. -/
structure Metadata where
  arch : String := ""
  extensions : List String := []
  attributes : Keyed AttributeValue := .empty
  specialRegisters : Keyed Setting := .empty
  operations : List String := []
  assignments : List Assignment := []
  unspecified : Bool := false
  deriving DecidableEq, Repr

namespace Metadata

def addExtension (m : Metadata) (name : String) : Metadata :=
  if name ∈ m.extensions then m else { m with extensions := m.extensions ++ [name] }

def setAttribute (m : Metadata) (name : String) (value : AttributeValue) : Metadata :=
  { m with attributes := m.attributes.insert name value }

end Metadata

end InstrTable
