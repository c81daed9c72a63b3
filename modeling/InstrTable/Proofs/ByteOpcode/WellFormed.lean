import InstrTable.Proofs.ByteOpcode.Clean
import InstrTable.Proofs.Text.Pieces
import Mathlib.Data.List.Basic

/-!
What an opcode can say, whatever its text is. Bytes of a legacy opcode move between the prefix,
the escape map and the opcode, so that its invariant has to tell what the class of the prefix
depends on. The parts of a vector opcode stay where they are put.
-/

namespace InstrTable

/-! ### Digits -/

/-- The texts of a ModRM field that is written. -/
def modrmTexts : List String := ["r", "0", "1", "2", "3", "4", "5", "6", "7"]

/-- The field of a ModRM component is one of nine characters. -/
theorem toString_mem_modrmTexts {component : String} {field : Char}
    (h : modrmComponent? component = some field) : field.toString ∈ modrmTexts := by
  have hdigits : ∀ n : Fin 56, '0' ≤ Char.ofNat n → (Char.ofNat n).toString ∈ modrmTexts := by
    decide
  unfold modrmComponent? at h
  split at h
  · simp only [Option.ite_none_right_eq_some, Option.some.injEq] at h
    obtain ⟨hfield, rfl⟩ := h
    rcases hfield with rfl | ⟨hlow, hhigh⟩
    · decide
    · next c _ =>
      have hsmall : c.toNat < 56 := Nat.lt_succ_of_le hhigh
      obtain ⟨n, rfl⟩ := Text.exists_ofNat_eq hsmall
      exact hdigits n hlow
  · contradiction

namespace ByteOpcode

/-- What the opcode byte and the ModRM field of every opcode are, where they are written. -/
structure HasDigits (op : ByteOpcode) : Prop where
  opcode : op.opcode = "" ∨ IsByte op.opcode
  modrm : op.modrm = "" ∨ op.modrm ∈ modrmTexts

theorem exists_hexDigit? {c : Char} (h : Legacy.Token.isHexDigit c = true) :
    ∃ d < 16, hexDigit? c = some d := by
  simp only [Legacy.Token.isHexDigit, Bool.or_eq_true, Bool.and_eq_true, decide_eq_true_eq] at h
  by_cases hdigit : '0' ≤ c ∧ c ≤ '9'
  · have hhigh : c.toNat ≤ 57 := hdigit.2
    exact ⟨c.toNat - 48, by omega, if_pos hdigit⟩
  · have hletter : 'A' ≤ c ∧ c ≤ 'F' := h.resolve_left hdigit
    have hhigh : c.toNat ≤ 70 := hletter.2
    refine ⟨c.toNat - 65 + 10, by omega, ?_⟩
    rw [hexDigit?, if_neg hdigit, if_pos hletter]
    rfl

/-- Two hexadecimal digits have a value. -/
theorem opcodeValue?_of_isByte {op : ByteOpcode} (h : IsByte op.opcode) :
    ∃ n < 256, op.opcodeValue? = some n := by
  have hlength : op.opcode.toList.length = 2 := String.length_toList ▸ h.1
  obtain ⟨c, d, hcs⟩ := List.length_eq_two.mp hlength
  obtain ⟨m, hm, hc⟩ := exists_hexDigit? (h.2 c (by simp [hcs]))
  obtain ⟨n, hn, hd⟩ := exists_hexDigit? (h.2 d (by simp [hcs]))
  have hne : op.opcode.isEmpty = false := by
    rw [String.isEmpty_eq_false_iff]
    rintro heq
    simp [heq] at hcs
  refine ⟨16 * m + n, by omega, ?_⟩
  simp [opcodeValue?, hne, hcs, hc, hd]

namespace HasDigits

variable {op : ByteOpcode}

theorem opcodeValue?_eq_none_iff (h : HasDigits op) :
    op.opcodeValue? = none ↔ op.opcode = "" := by
  constructor
  · intro hnone
    refine h.opcode.resolve_right fun hbyte => ?_
    obtain ⟨n, -, hsome⟩ := opcodeValue?_of_isByte hbyte
    simp [hnone] at hsome
  · intro hempty
    simp [opcodeValue?, hempty]

theorem modrmDigit?_eq_none_iff (h : HasDigits op) :
    op.modrmDigit? = none ↔ op.modrm = "" ∨ op.modrm = "r" := by
  have hall : ∀ s ∈ "" :: modrmTexts,
      ({ modrm := s } : ByteOpcode).modrmDigit? = none ↔ s = "" ∨ s = "r" := by decide
  exact hall op.modrm (List.mem_cons.mpr h.modrm)

end HasDigits

end ByteOpcode

open ByteOpcode

/-! ### Legacy opcodes -/

namespace Legacy

/-- What an action tells of the component that it is taken for, and of the opcode before it. -/
def Action.Fits (op : ByteOpcode) (token : Token) : Action → Prop
  | .setWide => token = .rexW
  | .addMandatory byte => token = .byte byte "" ∧ isMandatory op byte = true
  | .addEscape byte => token = .byte byte "" ∧ isEscape op byte = true
  | .escape3DNow => token = .byte "0F" "" ∧ op.escapeMap = "0F"
  | .placeOpcode byte _ => ∃ suffix, token = .byte byte suffix
  | .setModrm field => token = .modrm field
  | .addImmediate bits => token = .immediate bits
  | .setDisplacement bits => token = .displacement bits

theorem fits_of_action {op : ByteOpcode} {token : Token} {action : Action}
    (h : action? op token = some action) : action.Fits op token := by
  cases token with
  | byte digits suffix =>
      simp only [action?] at h
      split_ifs at h with hsuffix hmandatory hescape hnow <;> obtain rfl := Option.some.inj h
      · exact ⟨by rw [hsuffix], hmandatory⟩
      · exact ⟨by rw [hsuffix], hescape⟩
      · simp only [Bool.and_eq_true, decide_eq_true_eq] at hnow
        exact ⟨by rw [hsuffix, hnow.2], hnow.1⟩
      · exact ⟨suffix, rfl⟩
      · exact ⟨suffix, rfl⟩
  | modrm | displacement =>
      simp only [action?, Option.ite_none_right_eq_some, Option.some.injEq] at h
      obtain ⟨-, rfl⟩ := h
      rfl
  | rexW | immediate =>
      obtain rfl := Option.some.inj h
      rfl
  | other => contradiction

/-- The field and the width of a component are those that are written. -/
theorem ofComponent_eq_modrm {component : String} {field : Char}
    (h : Token.ofComponent component = .modrm field) : modrmComponent? component = some field := by
  unfold Token.ofComponent at h
  grind

theorem ofComponent_eq_displacement {component : String} {bits : Nat}
    (h : Token.ofComponent component = .displacement bits) : bits ∈ [8, 32] := by
  have hbits : displacementSize? component = some bits := by
    unfold Token.ofComponent at h
    grind
  unfold displacementSize? at hbits
  split at hbits <;> simp_all

/-- The escape maps of a legacy opcode, those of the FPU apart. -/
def escapeMaps : List String := ["0F", "0F01", "0F38", "0F3A", "0FAE"]

/-- What a legacy opcode can say. The class of its prefix is told by its bytes: that of the FPU
has a wait or an escape of the FPU in front of it, and that of 3DNow another escape map. -/
structure WellFormed (op : ByteOpcode) : Prop extends HasDigits op where
  prefixClass : op.prefixClass ∈ [.none, .threeDNow, .fpu]
  mandatory : op.mandatory ∈ ["", "66", "F2", "F3", "66F2", "66F3", "9B"]
  escapeMap : op.escapeMap = "" ∨ op.escapeMap ∈ escapeMaps ∨ op.escapeMap ∈ fpuEscapes
  displacementWidth : op.displacementWidth ∈ [0, 8, 32]
  width : op.width ∈ ["", "W1"]
  vectorOperand : op.vectorOperand = ""
  vectorLength : op.vectorLength = ""
  fpu_of_escape : op.escapeMap ∈ fpuEscapes → op.prefixClass = .fpu
  escape_of_fpu : op.prefixClass = .fpu → op.mandatory = "9B" ∨ op.escapeMap ∈ fpuEscapes
  escape_of_threeDNow : op.prefixClass = .threeDNow → op.escapeMap ∈ escapeMaps

namespace WellFormed

variable {op : ByteOpcode}

theorem start (text : String) : WellFormed { text } where
  opcode := .inl rfl
  modrm := .inl rfl
  prefixClass := List.mem_cons_self
  mandatory := List.mem_cons_self
  escapeMap := .inl rfl
  displacementWidth := List.mem_cons_self
  width := List.mem_cons_self
  vectorOperand := rfl
  vectorLength := rfl
  fpu_of_escape := by simp [fpuEscapes]
  escape_of_fpu := by simp
  escape_of_threeDNow := by simp

/-- An escape of the FPU is in no other escape map. -/
theorem not_fpuEscape {map : String} (h : map = "" ∨ map ∈ escapeMaps) : map ∉ fpuEscapes := by
  have hall : ∀ map ∈ "" :: escapeMaps, map ∉ fpuEscapes := by decide
  exact hall map (List.mem_cons.mpr h)

/-- A longer escape map is still none of the FPU, so that the class of the prefix stays. -/
theorem withEscapeMap (h : WellFormed op) {map : String} (hmap : map ∈ escapeMaps)
    (hold : op.escapeMap = "" ∨ op.escapeMap ∈ escapeMaps) :
    WellFormed { op with escapeMap := map } where
  opcode := h.opcode
  modrm := h.modrm
  prefixClass := h.prefixClass
  mandatory := h.mandatory
  escapeMap := .inr (.inl hmap)
  displacementWidth := h.displacementWidth
  width := h.width
  vectorOperand := h.vectorOperand
  vectorLength := h.vectorLength
  fpu_of_escape := fun hfpu => absurd hfpu (not_fpuEscape (.inr hmap))
  escape_of_fpu := fun hfpu => .inl ((h.escape_of_fpu hfpu).resolve_right (not_fpuEscape hold))
  escape_of_threeDNow := fun _ => hmap

theorem takeOpcode (h : WellFormed op) {byte : String} (hbyte : IsByte byte) :
    WellFormed (takeOpcode op byte).1 := by
  rcases takeOpcode_cases op byte with ⟨hmap, hop, heq⟩ | ⟨hmandatory, hop, heq⟩ |
    ⟨hmap, hop, heq⟩ | ⟨_, heq⟩ | ⟨_, heq⟩ | ⟨_, _, heq⟩ <;> rw [heq]
  · have hlonger : op.escapeMap ++ op.opcode = "0FAE" := by rw [hmap, hop]; rfl
    have hmoved : WellFormed { op with escapeMap := "0FAE" } :=
      h.withEscapeMap (by decide) (.inr (by rw [hmap]; decide))
    rw [hlonger]
    exact { hmoved with opcode := .inr hbyte }
  · exact { h with
      opcode := .inr hbyte
      prefixClass := by simp
      mandatory := by simp [hop]
      fpu_of_escape := fun _ => rfl
      escape_of_fpu := fun _ => .inl hop
      escape_of_threeDNow := by simp }
  · exact { h with
      opcode := .inr hbyte
      prefixClass := by simp
      escapeMap := .inr (.inr hop)
      fpu_of_escape := fun _ => rfl
      escape_of_fpu := fun _ => .inr hop
      escape_of_threeDNow := by simp }
  all_goals exact { h with opcode := .inr hbyte }

/-- What one component does to a legacy opcode leaves it well formed. -/
theorem step (h : WellFormed op) (component : String) :
    WellFormed (step op component).1 := by
  cases haction : action? op (.ofComponent component) with
  | none => simpa [Legacy.step, haction] using h
  | some action =>
      rw [step_of_action haction]
      have hfits := fits_of_action haction
      cases action with
      | setWide => exact { h with width := by simp [Action.apply] }
      | addMandatory byte =>
          have hmandatory := hfits.2
          simp only [isMandatory, Bool.and_eq_true, Bool.or_eq_true, decide_eq_true_eq] at hmandatory
          obtain ⟨hmap, hbytes⟩ := hmandatory
          exact { h with
            mandatory := by
              rcases hbytes with ⟨hold, (rfl | rfl) | rfl⟩ | ⟨hold, rfl | rfl⟩ <;>
                simp [Action.apply, hold]
            escape_of_fpu := fun hfpu => by
              -- no legacy opcode of the FPU has neither a wait nor an escape
              have hwait := (h.escape_of_fpu hfpu).resolve_right (not_fpuEscape (.inl hmap))
              simp [hwait] at hbytes }
      | addEscape byte =>
          have hescape := hfits.2
          simp only [isEscape, Bool.and_eq_true, Bool.or_eq_true, decide_eq_true_eq] at hescape
          refine h.withEscapeMap ?_ ?_
          · rcases hescape with ⟨hold, rfl⟩ | ⟨hold, (rfl | rfl) | rfl⟩ <;>
              simp [escapeMaps, hold]
          · rcases hescape with ⟨hold, -⟩ | ⟨hold, -⟩
            · exact .inl hold
            · exact .inr (by rw [hold]; decide)
      | escape3DNow =>
          have hmap : op.escapeMap ∈ escapeMaps := by rw [hfits.2]; decide
          exact { h with
            prefixClass := by simp [Action.apply]
            fpu_of_escape := fun hfpu => absurd hfpu (not_fpuEscape (.inr hmap))
            escape_of_fpu := by simp [Action.apply]
            escape_of_threeDNow := fun _ => hmap }
      | placeOpcode byte embeds =>
          have hmarked : WellFormed { op with embedsRegister := op.embedsRegister || embeds } :=
            { h with }
          exact hmarked.takeOpcode (isByte_of_action haction)
      | setModrm field =>
          have hfield := toString_mem_modrmTexts (ofComponent_eq_modrm hfits)
          exact { h with modrm := .inr hfield }
      | addImmediate bits => exact { h with }
      | setDisplacement bits =>
          exact { h with
            displacementWidth := List.mem_cons_of_mem _ (ofComponent_eq_displacement hfits) }

/-- The opcode byte of `0F 01` is taken out of the escape map again. -/
theorem settle (h : WellFormed op) : WellFormed op.settle := by
  unfold ByteOpcode.settle
  split
  · next hsettles =>
    have hmap : WellFormed { op with escapeMap := "0F" } :=
      h.withEscapeMap (by decide) (.inr (by rw [hsettles.2]; decide))
    have hbyte : IsByte "01" := ⟨rfl, by simp [Token.isHexDigit]⟩
    exact { hmap with opcode := .inr hbyte }
  · exact h

theorem read {text : String} (h : Vector.isPrefixed text = false) :
    WellFormed (ByteOpcode.read text).1 := by
  have hcomponents : WellFormed (readComponents text).1 := by
    simp only [readComponents, h, Bool.false_eq_true, if_false]
    exact run_keeps Legacy.step (fun _ component hop => hop.step component) (start text) _
  exact hcomponents.settle

end WellFormed

end Legacy

/-! ### Vector opcodes -/

namespace Vector

/-- What the parts of a vector prefix can be. -/
def Part.IsKnown : Part → Prop
  | .prefixClass p => p ∈ [.vex, .xop, .evex]
  | .operand use => use ∈ ["NDS", "NDD", "DDS"]
  | .length bits => bits ∈ ["LIG", "128", "256", "512"]
  | .noMandatory => True
  | .mandatory byte => byte ∈ ["66", "F2", "F3"]
  | .escapeMap bytes => bytes ∈ ["0F", "0F3A", "0F38", "M8", "M9"]
  | .width w => w ∈ ["WIG", "W0", "W1"]

theorem isKnown_of_component {component : String} {part : Part}
    (h : Part.ofComponent? component = some part) : part.IsKnown := by
  unfold Part.ofComponent? at h
  split at h
  · next p hp =>
    obtain rfl := Option.some.inj h
    unfold Part.prefixClass? at hp
    split at hp <;> simp_all [Part.IsKnown]
  · split at h
    · next huse =>
      obtain rfl := Option.some.inj h
      exact huse
    · split at h
      · next bits hbits =>
        obtain rfl := Option.some.inj h
        unfold Part.length? at hbits
        split at hbits <;> simp_all [Part.IsKnown]
      · split_ifs at h with hnone hmandatory hmap hwidth <;> obtain rfl := Option.some.inj h
        · trivial
        · exact hmandatory
        · exact hmap
        · exact hwidth

/-- What an opcode with a vector prefix can say. -/
structure WellFormed (op : ByteOpcode) : Prop extends HasDigits op where
  prefixClass : op.prefixClass ∈ [.vex, .xop, .evex]
  vectorOperand : op.vectorOperand ∈ ["", "NDS", "NDD", "DDS"]
  vectorLength : op.vectorLength ∈ ["", "LIG", "128", "256", "512"]
  width : op.width ∈ ["", "WIG", "W0", "W1"]
  mandatory : op.mandatory ∈ ["", "66", "F2", "F3"]
  escapeMap : op.escapeMap ∈ ["", "0F", "0F3A", "0F38", "M8", "M9"]
  displacementWidth : op.displacementWidth = 0
  embedsRegister : op.embedsRegister = false
  addressSizeOverride : op.addressSizeOverride = false

namespace WellFormed

variable {op : ByteOpcode}

theorem partStep (h : WellFormed op) (component : String) :
    WellFormed (partStep op component).1 := by
  unfold Vector.partStep
  cases hpart : Part.ofComponent? component with
  | none => exact h
  | some part =>
      have hknown := isKnown_of_component hpart
      cases part with
      | prefixClass p => exact { h with prefixClass := hknown }
      | operand use => exact { h with vectorOperand := List.mem_cons_of_mem _ hknown }
      | length bits => exact { h with vectorLength := List.mem_cons_of_mem _ hknown }
      | noMandatory => exact h
      | mandatory byte => exact { h with mandatory := List.mem_cons_of_mem _ hknown }
      | escapeMap bytes => exact { h with escapeMap := List.mem_cons_of_mem _ hknown }
      | width w => exact { h with width := List.mem_cons_of_mem _ hknown }

theorem bodyStep (h : WellFormed op) (component : String) :
    WellFormed (bodyStep op component).1 := by
  rcases bodyStep_cases op component with ⟨byte, hbyte, -, heq⟩ | ⟨field, hfield, -, heq⟩ |
    ⟨bits, -, -, heq⟩ | ⟨-, heq⟩ <;> rw [heq]
  · exact { h with opcode := .inr (isByte_of_byte? hbyte) }
  · exact { h with modrm := .inr (toString_mem_modrmTexts hfield) }
  · exact { h with }
  · exact h

/-- The first part of a prefix is the name of its class. -/
theorem start (text : String) {name : String} (h : name ∈ ["VEX", "XOP", "EVEX"]) :
    WellFormed (Vector.partStep { text } name).1 := by
  obtain ⟨p, hname, hp⟩ : ∃ p, Part.prefixClass? name = some p ∧ p ∈ [.vex, .xop, .evex] := by
    simp only [List.mem_cons, List.not_mem_nil, or_false] at h
    rcases h with rfl | rfl | rfl
    · exact ⟨.vex, rfl, by simp⟩
    · exact ⟨.xop, rfl, by simp⟩
    · exact ⟨.evex, rfl, by simp⟩
  have hstep : (Vector.partStep { text } name).1 = { text, prefixClass := p } := by
    simp [Vector.partStep, Part.ofComponent?, hname, Part.apply]
  rw [hstep]
  exact {
    opcode := .inl rfl
    modrm := .inl rfl
    prefixClass := hp
    vectorOperand := List.mem_cons_self
    vectorLength := List.mem_cons_self
    width := List.mem_cons_self
    mandatory := List.mem_cons_self
    escapeMap := List.mem_cons_self
    displacementWidth := rfl
    embedsRegister := rfl
    addressSizeOverride := rfl }

theorem settle_eq (h : WellFormed op) : op.settle = op := by
  have hmap : op.escapeMap ≠ "0F01" := by
    intro heq
    have hnot : "0F01" ∉ ["", "0F", "0F3A", "0F38", "M8", "M9"] := by decide
    exact hnot (heq ▸ h.escapeMap)
  simp [ByteOpcode.settle, hmap]

theorem readComponents {text : String} (h : isPrefixed text = true) :
    WellFormed (ByteOpcode.readComponents text).1 := by
  obtain ⟨name, hname, rest, body, hwords⟩ := exists_wordsOf_prefixed h
  have hparts : piecesOf '.' (String.ofList (name.toList ++ '.' :: rest)) =
      name :: (Text.pieces '.' rest).map String.ofList := by
    have hdot : ∀ name ∈ ["VEX", "XOP", "EVEX"], '.' ∉ name.toList := by decide
    rw [piecesOf, String.toList_ofList, Text.pieces_append_cons (hdot name hname), List.map_cons,
      String.ofList_toList]
  simp only [ByteOpcode.readComponents, h, if_true, hwords, hparts, run_cons]
  refine run_keeps Vector.bodyStep (fun _ component hop => hop.bodyStep component) ?_ body
  exact run_keeps Vector.partStep (fun _ component hop => hop.partStep component)
    (start text hname) _

theorem read {text : String} (h : isPrefixed text = true) :
    WellFormed (ByteOpcode.read text).1 := by
  have hcomponents := WellFormed.readComponents h
  show WellFormed (ByteOpcode.readComponents text).1.settle
  rwa [hcomponents.settle_eq]

end WellFormed

end Vector

namespace ByteOpcode

/-- However malformed a text is, the opcode that is read from it says only what opcodes can say,
and its byte and the digit of its ModRM field have values where they are written. -/
theorem read_wellFormed (text : String) :
    let op := (read text).1
    (op.opcode = "" ∨ IsByte op.opcode) ∧
      (op.modrm = "" ∨ op.modrm ∈ ["r", "0", "1", "2", "3", "4", "5", "6", "7"]) ∧
      (if Vector.isPrefixed text then Vector.WellFormed op else Legacy.WellFormed op) ∧
      (op.opcodeValue? = none ↔ op.opcode = "") ∧
      (op.modrmDigit? = none ↔ op.modrm = "" ∨ op.modrm = "r") := by
  intro op
  have hwellFormed : if Vector.isPrefixed text then Vector.WellFormed op
      else Legacy.WellFormed op := by
    split
    · next h => exact Vector.WellFormed.read h
    · next h => exact Legacy.WellFormed.read (Bool.eq_false_iff.mpr h)
  have hdigits : HasDigits op := by
    split at hwellFormed
    · exact hwellFormed.toHasDigits
    · exact hwellFormed.toHasDigits
  exact ⟨hdigits.opcode, hdigits.modrm, hwellFormed, hdigits.opcodeValue?_eq_none_iff,
    hdigits.modrmDigit?_eq_none_iff⟩

end ByteOpcode

end InstrTable
