import InstrTable.Row

/-!
Batches of rows. A batch is read as a whole: of the rows that cannot be read the
first is the error, and only a batch without such a row has records.
-/

namespace InstrTable

/-- The row of a batch that could not be read. -/
structure BatchError where
  index : Nat
  row : Row
  cause : RowError
  deriving DecidableEq, Repr

/-- A row that is written wrongly is named in the message. Any other error is passed on as it is. -/
def BatchError.message (e : BatchError) : String :=
  if e.cause.isSyntax then
    s!"Instruction #{e.index} {quotedList e.row.fields}: {e.cause.message}"
  else e.cause.message

namespace Batch

/-- What reading a row gave: its records, and the messages on the way. -/
abbrev Result := Except RowError (List Record) × List String

/-- Joins the results of rows, the first of which has number `i`. -/
def join (i : Nat) : List (Row × Result) → Except BatchError (List Record) × List String
  | [] => (.ok [], [])
  | (row, .error cause, messages) :: _ => (.error ⟨i, row, cause⟩, messages)
  | (_, .ok records, messages) :: rest =>
    let (records', messages') := join (i + 1) rest
    (records'.map (records ++ ·), messages ++ messages')

def read [Capacity] (d : Dictionaries) (rows : List Row) :
    Except BatchError (List Record) × List String :=
  join 0 (rows.map fun row => (row, row.read d))

end Batch

end InstrTable
