import InstrTable.BitTemplate
import InstrTable.Diagnostic
import InstrTable.KnownField
import InstrTable.Text.Blank
import InstrTable.Text.Digit
import InstrTable.Text.Piece

/-!
Reading a bit template. Segments stand between bars. A segment of digits and
capital letters is short for its runs of digits and its single letters.
-/

namespace InstrTable

namespace BitTemplate

def isBit (c : Char) : Bool := c = '0' || c = '1'

/-- Characters of a segment that is short for several. -/
def isMixed (c : Char) : Bool := isBit c || ('A' ≤ c && c ≤ 'Z')

/-- Runs of digits and single letters. -/
def mixedParts : List Char → List (List Char)
  | [] => []
  | c :: cs =>
    if isBit c then
      match cs, mixedParts cs with
      | d :: _, p :: ps => if isBit d then (c :: p) :: ps else [c] :: p :: ps
      | _, ps => [c] :: ps
    else [c] :: mixedParts cs

/-- The segments that one text between bars is short for. -/
def expandSegment (cs : List Char) : List (List Char) :=
  if (knownField? (String.ofList cs)).isNone && cs.all isMixed && 2 ≤ cs.length then mixedParts cs
  else [cs]

/-- The segments of a template. -/
def segments (cs : List Char) : List (List Char) :=
  (Text.pieces '|' cs).flatMap fun piece => expandSegment (Text.trim piece)

/-- Drops the quotes around a name. -/
def unquoted (cs : List Char) : List Char :=
  (((cs.dropWhile (· = '\'')).reverse).dropWhile (· = '\'')).reverse

/-- What is written behind the name of a field. -/
inductive Suffix where
  | slice (first last : Nat)
  | bit (n : Nat)
  | width (n : Nat)
  deriving DecidableEq, Repr

/-- Reads digits between blanks. -/
def blankedNat? (cs : List Char) : Option Nat := Text.nat? (Text.trim cs)

/-- Reads a bit or a range of bits in brackets at the end. -/
def takeBracket? (cs : List Char) : Option (List Char × Suffix) :=
  match cs.getLast? with
  | some ']' =>
    match Text.cutLast? '[' cs.dropLast with
    | none => none
    | some (name, inner) =>
      match Text.cutFirst? ':' inner with
      | none => (blankedNat? inner).map fun n => (name, .bit n)
      | some (first, last) =>
        match blankedNat? first, blankedNat? last with
        | some m, some n => some (name, .slice m n)
        | _, _ => none
  | _ => none

/-- Reads a width behind a colon at the end. -/
def takeWidth? (cs : List Char) : Option (List Char × Suffix) :=
  match Text.cutLast? ':' cs with
  | none => none
  | some (name, digits) => (Text.nat? (Text.trimStart digits)).map fun n => (name, .width n)

/-- A name and what is written behind it. One line feed may end the field. -/
def takeSuffix? (cs : List Char) : Option (List Char × Suffix) :=
  let cs := Text.dropFinalNewline cs
  ((takeBracket? cs).or (takeWidth? cs)).map fun (name, suffix) => (Text.trim name, suffix)

/-- Reads a named field of `opcode`. A range of bits may stand in either order,
but the wrong one is reported. A field without a name is reported and dropped. -/
def readNamed (opcode : String) (segment : List Char) :
    Option (FieldContent × Nat) × List Diagnostic :=
  let lowQuote := segment.head? = some '\''
  let highQuote := segment.getLast? = some '\'' && 1 < segment.length
  let key := unquoted segment
  let (name, slice, width, ds) : List Char × Option (Nat × Nat) × Nat × List Diagnostic :=
    match takeSuffix? key with
    | some (name, .slice first last) =>
      let hi := max first last
      let lo := min first last
      (name, some (hi, lo), hi - lo + 1,
        if first < last then [.reversedBitRange (String.ofList key) opcode] else [])
    | some (name, .bit n) => (name, some (n, n), 1, [])
    | some (name, .width n) => (name, none, n, [])
    | none => (key, none, ((knownField? (String.ofList key)).map (·.bits)).getD 1, [])
  if name.isEmpty then (none, ds ++ [.emptyField opcode])
  else (some (.named (String.ofList name) slice lowQuote highQuote, width), ds)

/-- Reads a segment of `opcode`. -/
def readSegment (opcode : String) (segment : List Char) :
    Option (FieldContent × Nat) × List Diagnostic :=
  if !segment.isEmpty && segment.all isBit then
    (some (.literal (segment.map (· = '1')), segment.length), [])
  else readNamed opcode segment

/-- Whether some but not all fields of a name are slices. -/
def isSizedAndSliced (t : BitTemplate) (name : String) : Bool :=
  let slices := (t.parts name).map (·.content.slice?.isSome)
  slices.any id && !slices.all id

/-- Reports for the names that have both sizes and slices, in the order of the
messages. -/
def mixedReports (t : BitTemplate) : List Diagnostic :=
  ((t.names.filter t.isSizedAndSliced).map fun n => Diagnostic.sizedAndSliced n t.text).mergeSort
    fun a b => decide (a.message ≤ b.message)

/-- A word has 32 bits unless its encoding says otherwise. -/
def expectedWidth (encoding : String) : Nat := (wordSize? encoding).getD 32

/-- Reads the template that a text describes, whatever room its bits take. -/
def read (text encoding : String) : BitTemplate × List Diagnostic :=
  let readings := (segments text.toList).map (readSegment text)
  let t : BitTemplate := { text, fields := BitField.place (readings.filterMap Prod.fst) }
  let expected := expectedWidth encoding
  (t, readings.flatMap Prod.snd ++ t.mixedReports ++
    if t.width = expected then [] else [.bitCount t.width text expected])

/-- The problems of single segments. -/
def segmentReports (text : String) : List Diagnostic :=
  (segments text.toList).flatMap fun segment => (readSegment text segment).2

/-- Reads a template and writes its fixed bits. If there is no room for them, no more than the
segments is looked at. -/
def build [Capacity] (text encoding : String) :
    Except CapacityError BitTemplate × List Diagnostic :=
  let (t, ds) := read text encoding
  if t.fields.all BitField.fits then (.ok t, ds) else (.error .tooManyDigits, segmentReports text)

end BitTemplate

/-- The segments of a bit template. -/
def bitSegments (s : String) : List String := (BitTemplate.segments s.toList).map String.ofList

end InstrTable
