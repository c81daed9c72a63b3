import InstrTable.Text.Quoted
import InstrTable.Timestamp

/-!
Why the text of a document cannot be read.
-/

namespace InstrTable.Document

inductive ReadError where
  | malformed
  /-- The code behind an escape is that of no character. -/
  | character
  /-- A number has nothing but a sign. -/
  | noDigits
  | noNumber (base : Nat) (digits : String)
  | noReal (text : String)
  | timestamp (e : TimestampError)
  deriving DecidableEq, Repr

namespace ReadError

/-- The longest piece of a text that is shown. -/
def shownLength : Nat := 200

def message : ReadError → String
  | .malformed => "malformed document"
  | .character => "chr() arg not in range(0x110000)"
  | .noDigits => "string index out of range"
  | .noNumber base digits =>
    s!"invalid literal for int() with base {base}: " ++
      String.ofList ((Text.quoted digits.toList).take shownLength)
  | .noReal text => s!"could not convert string to float: {quotedText text}"
  | .timestamp e => e.message

end ReadError

/-- A result that is missing only if the text is malformed. -/
def wellFormed {α : Type} (r : Option α) : Except ReadError α :=
  match r with
  | some a => .ok a
  | none => .error .malformed

end InstrTable.Document
