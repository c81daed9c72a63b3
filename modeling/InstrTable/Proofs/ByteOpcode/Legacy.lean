import InstrTable.Proofs.ByteOpcode.Run
import Mathlib.Tactic.SplitIfs

/-!
What a step over a legacy component can do: the cases of a byte that becomes the
opcode, and what the choice of an action says of the opcode before it.
-/

namespace InstrTable

namespace Legacy

/-- A byte becomes the opcode in one of six ways, by what the opcode was before. -/
theorem takeOpcode_cases (op : ByteOpcode) (byte : String) :
    (op.escapeMap = "0F" ∧ op.opcode = "AE" ∧
      takeOpcode op byte =
        ({ op with escapeMap := op.escapeMap ++ op.opcode, opcode := byte }, [])) ∨
    (op.mandatory = "" ∧ op.opcode = "9B" ∧
      takeOpcode op byte =
        ({ op with mandatory := op.opcode, opcode := byte, prefixClass := .fpu }, [])) ∨
    (op.escapeMap = "" ∧ op.opcode ∈ fpuEscapes ∧
      takeOpcode op byte =
        ({ op with escapeMap := op.opcode, opcode := byte, prefixClass := .fpu }, [])) ∨
    (op.opcode = "" ∧ takeOpcode op byte = ({ op with opcode := byte }, [])) ∨
    (op.opcode = "67" ∧
      takeOpcode op byte = ({ op with addressSizeOverride := true, opcode := byte }, [])) ∨
    (op.opcode ≠ "" ∧ op.opcode ≠ "67" ∧
      takeOpcode op byte =
        ({ op with opcode := byte }, [.secondOpcode op.text op.opcode byte])) := by
  unfold takeOpcode
  split_ifs with hae hwait hfpu hempty haddress
  · exact .inl ⟨hae.1, hae.2, rfl⟩
  · exact .inr (.inl ⟨hwait.1, hwait.2, rfl⟩)
  · exact .inr (.inr (.inl ⟨hfpu.1, hfpu.2, rfl⟩))
  · exact .inr (.inr (.inr (.inl ⟨hempty, rfl⟩)))
  · exact .inr (.inr (.inr (.inr (.inl ⟨haddress, rfl⟩))))
  · exact .inr (.inr (.inr (.inr (.inr ⟨hempty, haddress, rfl⟩))))

/-- Whatever becomes of the byte that was the opcode, the new one takes its place. -/
theorem takeOpcode_eq (op : ByteOpcode) (byte : String) :
    (takeOpcode op byte).1.opcode = byte ∧
      (takeOpcode op byte).1.immediateWidth = op.immediateWidth := by
  unfold takeOpcode
  split_ifs
  all_goals exact ⟨rfl, rfl⟩

/-- A ModRM field is only set where there is none. -/
theorem modrm_eq_of_action {op : ByteOpcode} {token : Token} {field : Char}
    (h : action? op token = some (.setModrm field)) : op.modrm = "" := by
  cases token with
  | modrm =>
      simp only [action?] at h
      split_ifs at h with hempty
      exact hempty
  | byte =>
      simp only [action?] at h
      split_ifs at h <;> simp at h
  | displacement =>
      simp only [action?] at h
      split_ifs at h
      simp at h
  | rexW | immediate | other => simp [action?] at h

theorem eq_immediate_of_action {op : ByteOpcode} {token : Token} {bits : Nat}
    (h : action? op token = some (.addImmediate bits)) : token = .immediate bits := by
  cases token with
  | immediate => simpa [action?] using h
  | byte | modrm | displacement =>
      simp only [action?] at h
      split_ifs at h <;> simp at h
  | rexW | other => simp [action?] at h

theorem step_of_action {op : ByteOpcode} {component : String} {action : Action}
    (h : action? op (.ofComponent component) = some action) :
    step op component = action.apply op := by
  simp [step, h]

/-- A byte that carries a mark, or that is neither a prefix nor an escape any more, is
placed as the opcode. -/
theorem step_place {op : ByteOpcode} {component digits suffix : String}
    (htoken : Token.ofComponent component = .byte digits suffix)
    (hplace : suffix = "" → isMandatory op digits = false ∧ isEscape op digits = false ∧
      ¬(op.escapeMap = "0F" ∧ digits = "0F")) :
    step op component =
      takeOpcode { op with embedsRegister := op.embedsRegister || suffix != "" } digits := by
  by_cases hsuffix : suffix = ""
  · obtain ⟨hmandatory, hescape, hnow⟩ := hplace hsuffix
    have haction : action? op (.ofComponent component) = some (.placeOpcode digits false) := by
      rw [htoken]
      simp [action?, hsuffix, hmandatory, hescape, hnow]
    rw [step_of_action haction]
    simp [Action.apply, hsuffix]
  · have haction : action? op (.ofComponent component) = some (.placeOpcode digits true) := by
      rw [htoken]
      simp [action?, hsuffix]
    have hwritten : (suffix != "") = true := by simpa using hsuffix
    rw [step_of_action haction]
    simp [Action.apply, hwritten]

theorem step_rexW (op : ByteOpcode) : step op "REX.W" = ({ op with width := "W1" }, []) := by
  have htoken : Token.ofComponent "REX.W" = .rexW := by decide
  have haction : action? op (.ofComponent "REX.W") = some .setWide := by
    rw [htoken]
    rfl
  rw [step_of_action haction]
  rfl

/-- A byte without a mark that is a mandatory prefix lengthens the prefix. -/
theorem step_mandatory {op : ByteOpcode} {component digits : String}
    (htoken : Token.ofComponent component = .byte digits "")
    (h : isMandatory op digits = true) :
    step op component = ({ op with mandatory := op.mandatory ++ digits }, []) := by
  have haction : action? op (.ofComponent component) = some (.addMandatory digits) := by
    rw [htoken]
    simp [action?, h]
  rw [step_of_action haction]
  rfl

/-- A byte without a mark that is an escape lengthens the escape map. -/
theorem step_escapeMap {op : ByteOpcode} {component digits : String}
    (htoken : Token.ofComponent component = .byte digits "")
    (hmandatory : isMandatory op digits = false) (h : isEscape op digits = true) :
    step op component = ({ op with escapeMap := op.escapeMap ++ digits }, []) := by
  have haction : action? op (.ofComponent component) = some (.addEscape digits) := by
    rw [htoken]
    simp [action?, hmandatory, h]
  rw [step_of_action haction]
  rfl

/-- A second `0F` is no escape, but makes the opcode one of 3DNow. -/
theorem step_secondEscape {op : ByteOpcode} {component : String}
    (htoken : Token.ofComponent component = .byte "0F" "") (hmap : op.escapeMap = "0F") :
    step op component = ({ op with prefixClass := .threeDNow }, []) := by
  have haction : action? op (.ofComponent component) = some .escape3DNow := by
    rw [htoken]
    simp [action?, isMandatory, isEscape, hmap]
  rw [step_of_action haction]
  rfl

theorem takeOpcode_empty {op : ByteOpcode} (hop : op.opcode = "") (byte : String) :
    takeOpcode op byte = ({ op with opcode := byte }, []) := by
  simp [takeOpcode, fpuEscapes, hop]

/-- An escape of the FPU makes way for the byte behind it. -/
theorem takeOpcode_fpu {op : ByteOpcode} (hmap : op.escapeMap = "")
    (hopcode : op.opcode ∈ fpuEscapes) (byte : String) :
    takeOpcode op byte =
      ({ op with escapeMap := op.opcode, opcode := byte, prefixClass := .fpu }, []) := by
  have hwait : op.opcode ≠ "9B" := by
    intro heq
    have hnot : "9B" ∉ fpuEscapes := by decide
    exact hnot (heq ▸ hopcode)
  simp [takeOpcode, hmap, hwait, hopcode]

end Legacy

namespace ByteOpcode

theorem settle_eq (op : ByteOpcode) :
    (op.settle.opcode = op.opcode ∨ op.settle.opcode = "01") ∧
      op.settle.immediateWidth = op.immediateWidth := by
  unfold settle
  split
  · exact ⟨.inr rfl, rfl⟩
  · exact ⟨.inl rfl, rfl⟩

/-- A text without a vector prefix whose components are read without a report. -/
theorem read_eq_settle {text : String} {op : ByteOpcode}
    (hprefixed : Vector.isPrefixed text = false)
    (hrun : run Legacy.step { text } (wordsOf text) = (op, [])) :
    read text = (op.settle, if op.settle.opcode = "" then [.noOpcode text] else []) := by
  simp [read, readComponents, hprefixed, hrun]

/-- A text without a vector prefix whose components leave an opcode byte. -/
theorem read_of_run {text : String} {op : ByteOpcode} (hprefixed : Vector.isPrefixed text = false)
    (hrun : run Legacy.step { text } (wordsOf text) = (op, [])) (hop : op.opcode ≠ "") :
    read text = (op, []) := by
  have hsettle : op.settle = op := by simp [settle, hop]
  rw [read_eq_settle hprefixed hrun, hsettle, if_neg hop]

end ByteOpcode

end InstrTable
