import InstrTable.Proofs.ByteOpcode.Legacy
import InstrTable.Proofs.Text.Words
import Mathlib.Algebra.Ring.Nat

/-!
Legacy components as they are spelled: a byte with or without the mark of a register,
and what follows the opcode byte. Each is read as what it spells.
-/

namespace InstrTable

/-- An upper-case hexadecimal digit. -/
def hexChar (d : Fin 16) : Char := "0123456789ABCDEF".toList.getD d.val '0'

/-- A byte of two hexadecimal digits. -/
structure HexByte where
  high : Fin 16
  low : Fin 16
  deriving DecidableEq, Repr

def HexByte.spelling (b : HexByte) : String := String.ofList [hexChar b.high, hexChar b.low]

/-- What is written behind a byte that holds a register. -/
inductive RegisterMark where
  | absent
  | plusR
  | plusI
  deriving DecidableEq, Repr

namespace RegisterMark

def spelling : RegisterMark → String
  | .absent => ""
  | .plusR => "+r"
  | .plusI => "+i"

def isWritten (mark : RegisterMark) : Bool := mark != .absent

@[simp] theorem spelling_eq_empty {mark : RegisterMark} :
    mark.spelling = "" ↔ mark = .absent := by
  cases mark <;> decide

theorem isWritten_eq (mark : RegisterMark) : mark.isWritten = (mark.spelling != "") := by
  cases mark <;> decide

end RegisterMark

/-- The field of a ModRM component: a register, or a digit that extends the opcode. -/
inductive ModrmField where
  | register
  | digit (d : Fin 8)
  deriving DecidableEq, Repr

def ModrmField.letter : ModrmField → Char
  | .register => 'r'
  | .digit d => Nat.digitChar d.val

inductive ImmediateSize where
  | byte
  | word
  | double
  | quad
  deriving DecidableEq, Repr

namespace ImmediateSize

def spelling : ImmediateSize → String
  | .byte => "ib"
  | .word => "iw"
  | .double => "id"
  | .quad => "iq"

def bits : ImmediateSize → Nat
  | .byte => 8
  | .word => 16
  | .double => 32
  | .quad => 64

end ImmediateSize

inductive DisplacementSize where
  | byte
  | double
  deriving DecidableEq, Repr

namespace DisplacementSize

def spelling : DisplacementSize → String
  | .byte => "cb"
  | .double => "cd"

def bits : DisplacementSize → Nat
  | .byte => 8
  | .double => 32

end DisplacementSize

/-- A component that may follow the opcode byte. -/
inductive Trailer where
  | modrm (field : ModrmField)
  | immediate (size : ImmediateSize)
  | displacement (size : DisplacementSize)
  deriving DecidableEq, Repr

namespace Trailer

def spelling : Trailer → String
  | .modrm field => String.ofList ['/', field.letter]
  | .immediate size => size.spelling
  | .displacement size => size.spelling

def field? : Trailer → Option Char
  | .modrm field => some field.letter
  | _ => none

def immediate? : Trailer → Option Nat
  | .immediate size => some size.bits
  | _ => none

def displacement? : Trailer → Option Nat
  | .displacement size => some size.bits
  | _ => none

/-- The ModRM fields that trailers spell. -/
def fields (trailers : List Trailer) : List Char :=
  trailers.flatMap fun t => t.field?.toList

def immediates (trailers : List Trailer) : List Nat :=
  trailers.flatMap fun t => t.immediate?.toList

def displacements (trailers : List Trailer) : List Nat :=
  trailers.flatMap fun t => t.displacement?.toList

@[simp] theorem fields_nil : fields [] = [] := rfl

@[simp] theorem immediates_nil : immediates [] = [] := rfl

@[simp] theorem displacements_nil : displacements [] = [] := rfl

@[simp] theorem fields_cons (t : Trailer) (trailers : List Trailer) :
    fields (t :: trailers) = t.field?.toList ++ fields trailers := rfl

@[simp] theorem immediates_cons (t : Trailer) (trailers : List Trailer) :
    immediates (t :: trailers) = t.immediate?.toList ++ immediates trailers := rfl

@[simp] theorem displacements_cons (t : Trailer) (trailers : List Trailer) :
    displacements (t :: trailers) = t.displacement?.toList ++ displacements trailers := rfl

end Trailer

/-! ### Bytes -/

theorem isHexDigit_hexChar : ∀ d : Fin 16, Legacy.Token.isHexDigit (hexChar d) = true := by
  decide

theorem isBlank_hexChar : ∀ d : Fin 16, Text.isBlank (hexChar d) = false := by decide

theorem hexChar_ne : ∀ d : Fin 16, 'V' ≠ hexChar d ∧ 'X' ≠ hexChar d := by decide

namespace HexByte

theorem toList_spelling (b : HexByte) : b.spelling.toList = [hexChar b.high, hexChar b.low] :=
  String.toList_ofList

theorem toList_marked (b : HexByte) (mark : RegisterMark) :
    (b.spelling ++ mark.spelling).toList =
      hexChar b.high :: hexChar b.low :: mark.spelling.toList := by
  rw [String.toList_append, toList_spelling]
  rfl

theorem spelling_ne_empty (b : HexByte) : b.spelling ≠ "" := by
  simp [spelling]

theorem isWord_marked (b : HexByte) (mark : RegisterMark) :
    Text.isWord (b.spelling ++ mark.spelling).toList = true := by
  have hmark : (mark.spelling.toList.all fun c => !Text.isBlank c) = true := by
    cases mark <;> decide
  rw [toList_marked]
  simp [Text.isWord, isBlank_hexChar, -List.all_eq_true, hmark]

theorem isPrefixed_marked (b : HexByte) (mark : RegisterMark) :
    Vector.isPrefixed (b.spelling ++ mark.spelling) = false := by
  obtain ⟨hV, hX⟩ := hexChar_ne b.high
  have hV' := (hexChar_ne b.low).1
  unfold Vector.isPrefixed
  rw [toList_marked]
  simp [Text.after?, hV, hX, hV']

end HexByte

namespace Legacy

theorem byte?_marked (b : HexByte) (mark : RegisterMark) :
    Token.byte? (b.spelling ++ mark.spelling) = some (b.spelling, mark.spelling) := by
  have hmark : (decide (Text.dropFinalNewline mark.spelling.toList = []) ||
      decide (Text.dropFinalNewline mark.spelling.toList = ['+', 'r']) ||
      decide (Text.dropFinalNewline mark.spelling.toList = ['+', 'i'])) = true := by
    cases mark <;> decide
  unfold Token.byte?
  rw [HexByte.toList_marked]
  simp only [isHexDigit_hexChar, Bool.and_self, hmark, if_true,
    String.ofList_toList]
  rfl

theorem ofComponent_marked (b : HexByte) (mark : RegisterMark) :
    Token.ofComponent (b.spelling ++ mark.spelling) = .byte b.spelling mark.spelling := by
  have hbyte := byte?_marked b mark
  have hrex : b.spelling ++ mark.spelling ≠ "REX.W" := by
    intro heq
    have hnone : Token.byte? "REX.W" = none := by decide
    rw [heq, hnone] at hbyte
    contradiction
  simp [Token.ofComponent, hrex, hbyte]

end Legacy

/-! ### Trailers -/

namespace Trailer

theorem isWord_spelling (t : Trailer) : Text.isWord t.spelling.toList = true := by
  cases t with
  | modrm field =>
      cases field with
      | register => decide
      | digit d => revert d; decide
  | immediate size => cases size <;> decide
  | displacement size => cases size <;> decide

theorem isPrefixed_spelling (t : Trailer) : Vector.isPrefixed t.spelling = false := by
  cases t with
  | modrm field =>
      cases field with
      | register => decide
      | digit d => revert d; decide
  | immediate size => cases size <;> decide
  | displacement size => cases size <;> decide

/-- What a trailer is read as. -/
def token : Trailer → Legacy.Token
  | .modrm field => .modrm field.letter
  | .immediate size => .immediate size.bits
  | .displacement size => .displacement size.bits

theorem ofComponent_spelling (t : Trailer) : Legacy.Token.ofComponent t.spelling = t.token := by
  cases t with
  | modrm field =>
      cases field with
      | register => decide
      | digit d => revert d; decide
  | immediate size => cases size <;> decide
  | displacement size => cases size <;> decide

end Trailer

namespace ByteOpcode

/-- An opcode and the trailers behind it. -/
def extend (op : ByteOpcode) (trailers : List Trailer) : ByteOpcode :=
  { op with
    modrm := op.modrm ++ String.ofList (Trailer.fields trailers)
    immediateWidth := op.immediateWidth + (Trailer.immediates trailers).sum
    displacementWidth := op.displacementWidth + (Trailer.displacements trailers).sum }

@[simp] theorem extend_nil (op : ByteOpcode) : op.extend [] = op := by
  simp [extend]

theorem extend_cons (op : ByteOpcode) (t : Trailer) (trailers : List Trailer) :
    op.extend (t :: trailers) = (op.extend [t]).extend trailers := by
  simp [extend, String.append_assoc, Nat.add_assoc]

/-- Whether trailers fit behind an opcode: it takes one field and one displacement. -/
structure HasRoom (op : ByteOpcode) (trailers : List Trailer) : Prop where
  fields : (Trailer.fields trailers).length ≤ if op.modrm = "" then 1 else 0
  displacements :
    (Trailer.displacements trailers).length ≤ if op.displacementWidth = 0 then 1 else 0

theorem HasRoom.modrm_eq {op : ByteOpcode} {t : Trailer} {trailers : List Trailer}
    (h : op.HasRoom (t :: trailers)) (hfield : t.field? ≠ none) : op.modrm = "" := by
  have hfields := h.fields
  obtain ⟨c, hc⟩ := Option.ne_none_iff_exists'.mp hfield
  by_contra hmodrm
  simp [hc, hmodrm] at hfields

theorem HasRoom.displacementWidth_eq {op : ByteOpcode} {t : Trailer} {trailers : List Trailer}
    (h : op.HasRoom (t :: trailers)) (hdisplacement : t.displacement? ≠ none) :
    op.displacementWidth = 0 := by
  have hdisplacements := h.displacements
  obtain ⟨bits, hbits⟩ := Option.ne_none_iff_exists'.mp hdisplacement
  by_contra hwidth
  simp [hbits, hwidth] at hdisplacements

theorem HasRoom.extend {op : ByteOpcode} {t : Trailer} {trailers : List Trailer}
    (h : op.HasRoom (t :: trailers)) : (op.extend [t]).HasRoom trailers := by
  have hfields := h.fields
  have hdisplacements := h.displacements
  cases t with
  | modrm field =>
      have hmodrm : op.modrm = "" := h.modrm_eq (by simp [Trailer.field?])
      simp only [Trailer.fields_cons, Trailer.field?, hmodrm] at hfields
      refine ⟨?_, hdisplacements⟩
      have hnone : (Trailer.fields trailers).length = 0 := by simpa using hfields
      omega
  | immediate size =>
      refine ⟨?_, hdisplacements⟩
      simpa [ByteOpcode.extend, Trailer.field?] using hfields
  | displacement size =>
      have hwidth : op.displacementWidth = 0 :=
        h.displacementWidth_eq (by simp [Trailer.displacement?])
      simp only [Trailer.displacements_cons, Trailer.displacement?, hwidth] at hdisplacements
      refine ⟨by simpa [ByteOpcode.extend, Trailer.field?] using hfields, ?_⟩
      have hnone : (Trailer.displacements trailers).length = 0 := by simpa using hdisplacements
      omega

end ByteOpcode

namespace Legacy

/-- A trailer is read without a report, unless it is a second field or a second
displacement. -/
theorem step_trailer {op : ByteOpcode} {t : Trailer}
    (hfield : t.field? ≠ none → op.modrm = "")
    (hdisplacement : t.displacement? ≠ none → op.displacementWidth = 0) :
    step op t.spelling = (op.extend [t], []) := by
  unfold step
  rw [Trailer.ofComponent_spelling]
  cases t with
  | modrm field =>
      have hempty : op.modrm = "" := hfield (by simp [Trailer.field?])
      simp [Trailer.token, action?, hempty, Action.apply, ByteOpcode.extend, Trailer.field?,
        Trailer.immediate?, Trailer.displacement?]
  | immediate size =>
      simp [Trailer.token, action?, Action.apply, ByteOpcode.extend, Trailer.field?,
        Trailer.immediate?, Trailer.displacement?]
  | displacement size =>
      have hzero : op.displacementWidth = 0 := hdisplacement (by simp [Trailer.displacement?])
      simp [Trailer.token, action?, hzero, Action.apply, ByteOpcode.extend, Trailer.field?,
        Trailer.immediate?, Trailer.displacement?]

/-- Trailers that fit are read without a report. -/
theorem run_trailers {op : ByteOpcode} {trailers : List Trailer} (h : op.HasRoom trailers) :
    ByteOpcode.run step op (trailers.map Trailer.spelling) = (op.extend trailers, []) := by
  induction trailers generalizing op with
  | nil => simp
  | cons t trailers ih =>
      have hstep := step_trailer h.modrm_eq h.displacementWidth_eq
      have hrest := ih h.extend
      rw [List.map_cons, ByteOpcode.run_cons, hstep, hrest,
        ByteOpcode.extend_cons op t trailers]
      rfl

end Legacy

end InstrTable
