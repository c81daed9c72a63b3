import InstrTable.Document
import InstrTable.Keyed
import InstrTable.Text.Blank
import InstrTable.Text.Digit

/-!
The register table. A type of registers lists its names, and may give ranges of
them: `xmm0-31` spells `xmm0` to `xmm31`.
-/

namespace InstrTable

/-- What a register name stands for. Without an index it is any register of its type. -/
structure Register where
  type : Scalar
  kind : Scalar
  index : Option Nat
  deriving DecidableEq, Repr

/-- The registers of one type. `any` spells any of them, unless it is empty. -/
structure RegisterClass where
  kind : Option Scalar := none
  any : String := ""
  names : List String := []
  deriving DecidableEq, Repr

/-- A range of register names: `front`, a number from `first` to `last`, `back`. -/
structure RegisterRange where
  front : List Char
  first : Nat
  last : Nat
  back : List Char
  deriving DecidableEq, Repr

namespace RegisterRange

def isStem (c : Char) : Bool := c.isAlpha || c == '(' || c == ')'

/-- Reads a range: letters or parentheses, digits, a hyphen, digits, and letters
or parentheses again. One line feed may follow it. -/
def ofName? (name : String) : Option RegisterRange :=
  let cs := Text.dropFinalNewline name.toList
  let front := cs.takeWhile isStem
  match Text.cutFirst? '-' (cs.dropWhile isStem) with
  | none => none
  | some (first, rest) =>
    let last := rest.takeWhile Text.isDigit
    let back := rest.dropWhile Text.isDigit
    if front.isEmpty || !back.all isStem then none
    else match Text.nat? first, Text.nat? last with
      | some m, some n => some ⟨front, m, n, back⟩
      | _, _ => none

/-- The names of a range with their numbers. -/
def spellings (r : RegisterRange) : List (String × Nat) :=
  (List.range' r.first (r.last + 1 - r.first)).map fun n =>
    (String.ofList (r.front ++ Text.digits n ++ r.back), n)

end RegisterRange

/-- The registers that a name in place `i` of its list spells, with their indices. -/
def spellings (name : String) (i : Nat) : List (String × Nat) :=
  match RegisterRange.ofName? name with
  | some range => range.spellings
  | none => [(name, i)]

namespace RegisterClass

/-- The names that a type of registers spells, in order. -/
def registers (type : Scalar) (d : RegisterClass) : List (String × Register) :=
  let kind := d.kind.getD type
  let any := if d.any.isEmpty then [] else [(d.any, ⟨type, kind, none⟩)]
  any ++ (d.names.zipIdx.flatMap fun (name, i) =>
    (spellings name i).map fun (spelling, n) => (spelling, ⟨type, kind, some n⟩))

end RegisterClass

/-- The register table of a list of types. Of two registers with one name the
later counts. -/
def registerTable (types : List (Scalar × RegisterClass)) : Keyed Register :=
  .ofList (types.flatMap fun (type, d) => d.registers type)

end InstrTable
