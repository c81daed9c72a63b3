import InstrTable.Marker
import InstrTable.Operand.Grammar
import InstrTable.Register

/-!
The x86 operands: alternatives with slashes between them, each a register of the
register table, a place in memory, an immediate, or a relative target.
-/

namespace InstrTable

namespace Operand.X86

/-- Takes a segment override off the front. -/
def takeSegment (alt : String) : String × String :=
  match alt.toList with
  | 'd' :: 's' :: ':' :: rest => ("ds", String.ofList rest)
  | 'e' :: 's' :: ':' :: rest => ("es", String.ofList rest)
  | _ => ("", alt)

/-- What may follow the size of a memory operand. -/
def isMemoryType (cs : List Char) : Bool :=
  cs = [] || cs = ['d', 'e', 'c'] || cs = ['b', 'c', 'd'] || cs = ['f', 'p'] || cs = ['i', 'n', 't']

/-- Reads memory of a size, as `m64`, `m32fp` or `moff8`. -/
def sizedMemory? (segment alt : String) : Option MemoryForm :=
  match alt.toList with
  | 'm' :: cs =>
    let (isOffset, cs) := match Text.after? ['o', 'f', 'f'] cs with
      | some rest => (true, rest)
      | none => (false, cs)
    if isMemoryType (cs.dropWhile Text.isDigit) then
      (Text.nat? (cs.takeWhile Text.isDigit)).map fun size =>
        { name := alt, size := (size : Int), isOffset, segment }
    else none
  | _ => none

/-- Reads memory that a vector indexes, as `vm32x`. -/
def vectorMemory? (segment alt : String) : Option MemoryForm :=
  match alt.toList with
  | 'v' :: 'm' :: cs =>
    match cs.dropWhile Text.isDigit with
    | [c] =>
      if c = 'x' ∨ c = 'y' ∨ c = 'z' then
        (Text.nat? (cs.takeWhile Text.isDigit)).map fun size =>
          { name := alt, segment, vectorIndex := String.ofList [c, 'm', 'm'],
            vectorIndexSize := (size : Int) }
      else none
    | _ => none
  | _ => none

def memory? (segment alt : String) : Option MemoryForm :=
  if alt = "mem" ∨ alt = "mib" then some { name := alt, segment }
  else (sizedMemory? segment alt).or (vectorMemory? segment alt)

/-- The immediates that are operands. Only `1` has a fixed value. -/
def immediate? (alt : String) : Option ImmediateForm :=
  if alt ∈ ["1", "i4", "ib", "iw", "id", "iq"] then
    (immediateSize? alt).map fun width =>
      { name := alt, width := (width : Int), literal := if alt = "1" then some 1 else none }
  else none

def relative? (alt : String) : Option RelativeForm :=
  match relativeSize? alt with
  | some width => if 0 < width then some { name := alt, width := (width : Int) } else none
  | none => none

/-- The form of an alternative. A segment is kept where a register or memory uses it. -/
def form? (registers : Keyed Register) (alternative : String) : Option Form :=
  let (segment, alt) := takeSegment alternative
  match registers.get? alt with
  | some r =>
    some (.register
      { name := alt, kind := r.type.plain, index := r.index.map Int.ofNat, segment })
  | none =>
    ((memory? segment alt).map .memory).or
      (((immediate? alt).map .immediate).or ((relative? alt).map .relative))

end Operand.X86

/-- The grammar of x86 operands over a register table. -/
def Grammar.x86 (registers : Keyed Register) : Grammar where
  takeShift cs := ("", cs)
  alternatives := splitTopLevel (some '/')
  classify alt := (.ok (Operand.X86.form? registers alt), [])
  access _ fallback := fallback

end InstrTable
