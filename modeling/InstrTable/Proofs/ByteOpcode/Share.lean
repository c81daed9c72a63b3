import InstrTable.ByteOpcode.Legacy
import InstrTable.Proofs.Text.Words
import Mathlib.Tactic.SplitIfs

/-!
The classes of legacy components. Each component is of one of six classes, and those of one
class read and write a share of the opcode that the others leave alone.
-/

namespace InstrTable

/-- The classes of the components of a legacy opcode. -/
inductive ComponentClass where
  | byte
  | rexW
  | modrm
  | immediate
  | displacement
  | other
  deriving DecidableEq, Repr

namespace ComponentClass

/-- Two upper-case hexadecimal digits, and maybe `+r` or `+i` behind them. -/
def isByte (component : String) : Bool :=
  match component.toList with
  | [c, d] => Legacy.Token.isHexDigit c && Legacy.Token.isHexDigit d
  | [c, d, '+', mark] =>
    Legacy.Token.isHexDigit c && Legacy.Token.isHexDigit d && (mark = 'r' || mark = 'i')
  | _ => false

/-- A slash, and behind it the letter r or a digit from 0 to 7. -/
def isModrm (component : String) : Bool :=
  match component.toList with
  | ['/', c] => c = 'r' || ('0' ≤ c && c ≤ '7')
  | _ => false

theorem isModrm_iff {component : String} :
    isModrm component = true ↔
      ∃ c, component.toList = ['/', c] ∧ (c = 'r' ∨ '0' ≤ c ∧ c ≤ '7') := by
  unfold isModrm
  split
  · next c hcs => simp [hcs]
  · next hother => simpa using fun c hc => absurd hc (hother c)

/-- The class of a component. -/
def of (component : String) : ComponentClass :=
  if isByte component then .byte
  else if component = "REX.W" then .rexW
  else if isModrm component then .modrm
  else if component ∈ ["ib", "iw", "id", "iq"] then .immediate
  else if component ∈ ["cb", "cd"] then .displacement
  else .other

end ComponentClass

namespace Legacy

/-! ### The class of a component -/

/-- The class of what a component is read as. -/
def Token.componentClass : Token → ComponentClass
  | .rexW => .rexW
  | .byte .. => .byte
  | .modrm _ => .modrm
  | .immediate _ => .immediate
  | .displacement _ => .displacement
  | .other _ => .other

theorem isSome_immediate?_iff {component : String} :
    (Token.immediate? component).isSome = true ↔ component ∈ ["ib", "iw", "id", "iq"] := by
  have hsizes : ∀ w ∈ ["ib", "iw", "id", "iq"], (immediateSize? w).isSome = true := by decide
  unfold Token.immediate?
  split
  · next h => simp [hsizes component h, h]
  · next h => simp [h]

theorem isSome_displacementSize?_iff {component : String} :
    (displacementSize? component).isSome = true ↔ component ∈ ["cb", "cd"] := by
  unfold displacementSize?
  split <;> simp_all

section word

variable {component : String} (hword : Text.isWord component.toList = true)
include hword

theorem isSome_byte? : (Token.byte? component).isSome = ComponentClass.isByte component := by
  have hblank := (Text.isWord_iff.mp hword).2
  unfold Token.byte? ComponentClass.isByte
  generalize component.toList = cs at hblank ⊢
  match cs with
  | [] => rfl
  | [_] => rfl
  | c :: d :: suffix =>
      have hsuffix : Text.dropFinalNewline suffix = suffix :=
        Text.dropFinalNewline_eq_self fun e he => hblank e (by simp [he])
      simp only [hsuffix]
      match suffix with
      | [] => simp [apply_ite]
      | [e] => simp
      | [e, mark] =>
          by_cases he : e = '+'
          · subst he
            simp [apply_ite]
          · simp [he]
      | _ :: _ :: _ :: _ => simp

theorem isSome_modrmComponent? :
    (modrmComponent? component).isSome = ComponentClass.isModrm component := by
  have hblank := (Text.isWord_iff.mp hword).2
  rw [Bool.eq_iff_iff, ComponentClass.isModrm_iff, modrmComponent?,
    Text.dropFinalNewline_eq_self hblank]
  split
  · next c hcs => simp [hcs]
  · next hother => simpa using fun c hc => absurd hc (hother c)

/-- A word is read as what its class says. -/
theorem componentClass_ofComponent :
    (Token.ofComponent component).componentClass = ComponentClass.of component := by
  by_cases hrex : component = "REX.W"
  · subst hrex
    decide
  -- each class has its own reader, and they are asked in the same order
  have hof : ComponentClass.of component =
      if (Token.byte? component).isSome then .byte
      else if (modrmComponent? component).isSome then .modrm
      else if (Token.immediate? component).isSome then .immediate
      else if (displacementSize? component).isSome then .displacement
      else .other := by
    simp only [ComponentClass.of, isSome_byte? hword, isSome_modrmComponent? hword,
      isSome_immediate?_iff, isSome_displacementSize?_iff, if_neg hrex]
  rw [hof, Token.ofComponent, if_neg hrex]
  cases Token.byte? component with
  | some parts => rfl
  | none =>
    cases modrmComponent? component with
    | some field => rfl
    | none =>
      cases Token.immediate? component with
      | some bits => rfl
      | none =>
        cases displacementSize? component with
        | some bits => rfl
        | none => rfl

end word

end Legacy

/-! ### The share of a class -/

namespace ByteOpcode

/-- What the components of a class read and write. Those that are not known only leave what
is left. -/
def share (op : ByteOpcode) : ComponentClass → ByteOpcode
  | .byte =>
    { prefixClass := op.prefixClass
      mandatory := op.mandatory
      escapeMap := op.escapeMap
      opcode := op.opcode
      embedsRegister := op.embedsRegister
      addressSizeOverride := op.addressSizeOverride }
  | .rexW => { width := op.width }
  | .modrm => { modrm := op.modrm }
  | .immediate => { immediateWidth := op.immediateWidth }
  | .displacement => { displacementWidth := op.displacementWidth }
  | .other => { vectorOperand := op.vectorOperand, vectorLength := op.vectorLength }

/-- The shares together are all but the text. -/
theorem eq_of_share_eq {op op' : ByteOpcode} (h : ∀ k, op.share k = op'.share k) :
    { op with text := "" } = { op' with text := "" } := by
  have hbyte := h .byte
  have hrexW := h .rexW
  have hmodrm := h .modrm
  have himmediate := h .immediate
  have hdisplacement := h .displacement
  have hother := h .other
  simp only [share, ByteOpcode.mk.injEq, true_and, and_true] at hbyte hrexW hmodrm
  simp only [share, ByteOpcode.mk.injEq, true_and, and_true] at himmediate hdisplacement hother
  simp [hbyte, hrexW, hmodrm, himmediate, hdisplacement, hother]

end ByteOpcode

namespace Legacy

theorem share_takeOpcode (op : ByteOpcode) (byte : String) :
    (takeOpcode op byte).1.share .byte = (takeOpcode (op.share .byte) byte).1 ∧
      (takeOpcode op byte).2.length = (takeOpcode (op.share .byte) byte).2.length := by
  unfold takeOpcode ByteOpcode.share
  dsimp only
  split_ifs
  all_goals exact ⟨rfl, rfl⟩

theorem share_takeOpcode_of_ne (op : ByteOpcode) (byte : String) {k : ComponentClass}
    (hk : k ≠ .byte) : (takeOpcode op byte).1.share k = op.share k := by
  unfold takeOpcode
  cases k with
  | byte => exact absurd rfl hk
  | _ =>
    split_ifs
    all_goals rfl

/-- What a component does to the share of its class, and how much it reports, can be told
from the share alone. -/
theorem share_step {component : String} {k : ComponentClass}
    (hk : (Token.ofComponent component).componentClass = k) (op : ByteOpcode) :
    (step op component).1.share k = (step (op.share k) component).1 ∧
      (step op component).2.length = (step (op.share k) component).2.length := by
  unfold step
  generalize Token.ofComponent component = token at hk ⊢
  subst hk
  cases token with
  | rexW | immediate | other => exact ⟨rfl, rfl⟩
  | modrm field =>
      by_cases hmodrm : op.modrm = ""
      · simp [action?, Action.apply, ByteOpcode.share, Token.componentClass, hmodrm]
      · simp [action?, ByteOpcode.share, Token.componentClass, hmodrm]
  | displacement bits =>
      by_cases hwidth : op.displacementWidth = 0
      · simp [action?, Action.apply, ByteOpcode.share, Token.componentClass, hwidth]
      · simp [action?, ByteOpcode.share, Token.componentClass, hwidth]
  | byte digits suffix =>
      -- what a byte does depends on the bytes before it, and on no field besides
      have haction : action? (op.share .byte) (.byte digits suffix) =
          action? op (.byte digits suffix) := rfl
      simp only [Token.componentClass]
      rw [haction]
      simp only [action?]
      split_ifs
      · exact ⟨rfl, rfl⟩
      · exact ⟨rfl, rfl⟩
      · exact ⟨rfl, rfl⟩
      · exact share_takeOpcode _ digits
      · exact share_takeOpcode _ digits

/-- A component leaves the shares of other classes alone. -/
theorem share_step_of_ne {component : String} {k : ComponentClass}
    (hk : (Token.ofComponent component).componentClass ≠ k) (op : ByteOpcode) :
    (step op component).1.share k = op.share k := by
  unfold step
  generalize Token.ofComponent component = token at hk ⊢
  cases token with
  | other => rfl
  | rexW | immediate =>
      cases k with
      | rexW | immediate => first | rfl | exact absurd rfl hk
      | _ => rfl
  | modrm field =>
      simp only [action?]
      split_ifs
      · cases k with
        | modrm => exact absurd rfl hk
        | _ => rfl
      · rfl
  | displacement bits =>
      simp only [action?]
      split_ifs
      · cases k with
        | displacement => exact absurd rfl hk
        | _ => rfl
      · rfl
  | byte digits suffix =>
      have hbyte : k ≠ .byte := Ne.symm hk
      cases k with
      | byte => exact absurd rfl hbyte
      | _ =>
        simp only [action?]
        split_ifs
        · rfl
        · rfl
        · rfl
        · exact (share_takeOpcode_of_ne _ digits hbyte).trans rfl
        · exact (share_takeOpcode_of_ne _ digits hbyte).trans rfl

end Legacy

end InstrTable
