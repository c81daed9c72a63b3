import InstrTable.Record.Reader

/-!
Rows of an instruction table. A row gives one record for each of its names, which
have slashes between them; all but the first are aliases.
-/

namespace InstrTable

/-- A row that was given as a list of any length, or taken from a table. -/
inductive Row where
  | listed (fields : List String)
  | stored (entry : Entry)
  deriving DecidableEq, Repr

namespace Row

def fields : Row → List String
  | .listed fields => fields
  | .stored entry => entry.fields

def entry? : Row → Option Entry
  | .listed fields => Entry.ofFields? fields
  | .stored entry => some entry

/-- How a row is shown in a message: in brackets, or in parentheses if it was
taken from a table. -/
def shown : Row → String
  | .listed fields => quotedList fields
  | .stored entry => "(" ++ ", ".intercalate (entry.fields.map quotedText) ++ ")"

end Row

inductive RowError where
  | fieldCount (row : Row)
  | noName (row : Row)
  | record (e : RecordError)
  deriving DecidableEq, Repr

namespace RowError

def message : RowError → String
  | .fieldCount row =>
    s!"Instruction tuple must have 5 fields, not {row.fields.length}: {row.shown}"
  | .noName row => s!"Instruction tuple has no name: {row.shown}"
  | .record e => e.message

/-- Whether a row is written wrongly. -/
def isSyntax : RowError → Bool
  | .fieldCount _ => true
  | .noName _ => true
  | .record e => e.isSyntax

end RowError

namespace Row

variable [Capacity]

/-- The names in a name field. -/
def names (field : String) : List String := ((piecesOf '/' field).map trimmed).filter (· ≠ "")

/-- Reads the records of some names of an entry, up to one that cannot be read.
The messages of all of them are listed. -/
def readNames (d : Dictionaries) (entry : Entry) :
    List (String × String) → Except RecordError (List Record) × List String
  | [] => (.ok [], [])
  | (name, aliasOf) :: rest =>
    match Record.read d { entry with name } aliasOf with
    | (.error e, ds) => (.error e, ds.messages)
    | (.ok record, ds) =>
      let (records, messages) := readNames d entry rest
      (records.map (record :: ·), ds.messages ++ messages)

/-- Names with what they are aliases of. -/
def aliased : List String → List (String × String)
  | [] => []
  | first :: others => (first, "") :: others.map fun name => (name, first)

/-- Reads all records of a row. -/
def read (d : Dictionaries) (row : Row) : Except RowError (List Record) × List String :=
  match row.entry? with
  | none => (.error (.fieldCount row), [])
  | some entry =>
    match names entry.name with
    | [] => (.error (.noName row), [])
    | ns =>
      let (records, messages) := readNames d entry (aliased ns)
      (records.mapError .record, messages)

end Row

end InstrTable
