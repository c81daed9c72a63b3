import InstrTable.Dictionaries
import InstrTable.Document.Reader
import InstrTable.Path

/-!
What tables are read with: the files that there are, a reader of documents, and a validator.
-/

namespace InstrTable

/-- An error that comes from outside, as far as it is told from others. -/
inductive Failure where
  /-- There is no such file. -/
  | missing
  /-- A path, a text or a part of it stands for no value. -/
  | value (message : String)
  /-- A text is no document. -/
  | malformed (message : String)
  | other (message : String)
  deriving DecidableEq, Repr

/-- What the program is given to find and read its tables. -/
structure Environment where
  /-- The directory of the tables for targets. -/
  directory : String
  /-- Whether there is something at a path. -/
  hasFile : String → Bool
  /-- The text of the file at a path. -/
  opened : String → Except Failure String
  /-- The document that a text spells. -/
  load : String → Except Failure Document
  validate : Validator

namespace Environment

/-- The path of the table for a target. The target may lead out of the directory. -/
def builtin (env : Environment) (target : String) : String :=
  Path.under env.directory (target ++ ".yaml")

/-- The path of a file if one is given, else of the table for a target. -/
def pathOf (env : Environment) (file target : String) : String :=
  if file = "" then env.builtin target else Path.normal file

/-- Reads the document in a file. -/
def document (env : Environment) (path : String) : Except Failure Document := do
  env.load (← env.opened path)

end Environment

namespace Document

/-- Errors of the reader as others see them. -/
def ReadError.failure : ReadError → Failure
  | .malformed => .malformed ReadError.malformed.message
  | .noDigits => .other ReadError.noDigits.message
  | e => .value e.message

def load (text : String) : Except Failure Document := (read text).mapError ReadError.failure

end Document

/-- The texts of the files that there are. -/
abbrev Files := String → Option String

namespace Files

/-- Files by their names as seen from one directory. A path may lead through the others. -/
def ofList (files : List (String × String)) : Files := fun path =>
  let placed := files.map fun f => (Path.parts f.1, f.2)
  let directories := [] :: placed.flatMap fun f => Path.heads f.1.dropLast
  (Path.find? directories [] path).bind fun place => placed.lookup place

/-- Files and nothing else, read by the reader and the validator of this library. A path cannot
have a null character. -/
def environment (files : Files) (directory : String) : Environment where
  directory
  hasFile path := (files path).isSome
  opened path :=
    if path.toList.contains '\x00' then .error (.value "embedded null byte")
    else match files path with
      | some text => .ok text
      | none => .error .missing
  load := Document.load
  validate := Table.validator

end Files

end InstrTable
