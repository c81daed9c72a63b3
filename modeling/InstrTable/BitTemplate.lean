import InstrTable.Bits

/-!
Bit templates: an instruction word as a row of fields, the most significant first.
A field is a run of fixed bits or a named part of the operands.
-/

namespace InstrTable

/-- What a field holds. A named field may hold a slice of the operand value, given
by its highest and lowest bit. A quote on a side implies one more bit there. -/
inductive FieldContent where
  | literal (bits : List Bool)
  | named (name : String) (slice : Option (Nat × Nat)) (lowQuote highQuote : Bool)
  deriving DecidableEq, Repr

namespace FieldContent

def name? : FieldContent → Option String
  | .literal _ => none
  | .named name .. => some name

def slice? : FieldContent → Option (Nat × Nat)
  | .literal _ => none
  | .named _ slice .. => slice

def lowQuote : FieldContent → Bool
  | .literal _ => false
  | .named _ _ low _ => low

def highQuote : FieldContent → Bool
  | .literal _ => false
  | .named _ _ _ high => high

def isLiteral : FieldContent → Bool
  | .literal _ => true
  | .named .. => false

/-- The fixed bits, the most significant first. A named field fixes none. -/
def bits : FieldContent → List Bool
  | .literal bits => bits
  | .named .. => []

end FieldContent

/-- Bits as a text of zeros and ones. -/
def bitText (bits : List Bool) : String :=
  String.ofList (bits.map fun b => if b then '1' else '0')

/-- The number whose binary digits are `bits`. -/
def ofBits (bits : List Bool) : Nat := bits.foldl (fun n b => 2 * n + b.toNat) 0

/-- A field of a template in its place: `lsb` is its lowest bit in the word. -/
structure BitField where
  content : FieldContent
  width : Nat
  lsb : Nat
  deriving DecidableEq, Repr

namespace BitField

def name? (f : BitField) : Option String := f.content.name?

/-- How the field is called in a layout. -/
def label (f : BitField) : String := f.name?.getD (bitText f.content.bits)

/-- Whether a field can be written. The ones of a fixed field are shifted over the places below
them, and both take digits of their own. A named field is not written. -/
def fits [Capacity] (f : BitField) : Bool :=
  !f.content.isLiteral || Bits.digits f.width + Bits.digits f.lsb ≤ Capacity.digits

/-- Bits of a row of fields. -/
def totalWidth : List BitField → Nat
  | [] => 0
  | f :: fs => f.width + totalWidth fs

/-- Fields placed next to each other, the last of them at bit zero. -/
def place : List (FieldContent × Nat) → List BitField
  | [] => []
  | (content, width) :: rest =>
    let placed := place rest
    ⟨content, width, totalWidth placed⟩ :: placed

/-- The fixed bits of a row of fields, with zeros for the rest. -/
def valueOf (fields : List BitField) : Nat :=
  fields.foldl (fun n f => (n <<< f.width) + ofBits f.content.bits) 0

/-- Ones where a row of fields has fixed bits. -/
def maskOf (fields : List BitField) : Nat :=
  fields.foldl
    (fun n f => (n <<< f.width) + if f.content.isLiteral then Bits.mask 0 f.width else 0) 0

end BitField

structure BitTemplate where
  text : String
  fields : List BitField
  deriving DecidableEq, Repr

namespace BitTemplate

/-- Bits of all fields together. -/
def width (t : BitTemplate) : Nat := BitField.totalWidth t.fields

def value (t : BitTemplate) : Nat := BitField.valueOf t.fields

def mask (t : BitTemplate) : Nat := BitField.maskOf t.fields

/-- The names of the fields, each once, in order. -/
def names (t : BitTemplate) : List String :=
  (t.fields.filterMap (·.name?)).foldl (fun ns n => if n ∈ ns then ns else ns ++ [n]) []

def parts (t : BitTemplate) (name : String) : List BitField :=
  t.fields.filter fun f => f.name? = some name

def hasField (t : BitTemplate) (name : String) : Bool := t.fields.any fun f => f.name? = some name

/-- Bits of the operand value in the fields of a name. A sliced value is as wide
as its highest bit requires. -/
def fieldWidth (t : BitTemplate) (name : String) : Nat :=
  let parts := t.parts name
  let slices := parts.filterMap (·.content.slice?)
  let width :=
    if slices.isEmpty then BitField.totalWidth parts
    else (slices.map Prod.fst).foldl max 0 + 1
  width + parts.countP (·.content.lowQuote) + parts.countP (·.content.highQuote)

def layout (t : BitTemplate) : String :=
  fieldLayout (t.fields.map fun f => (f.label, (f.lsb : Int), (f.width : Int)))

end BitTemplate

end InstrTable
