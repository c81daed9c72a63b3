import InstrTable.Proofs.ByteOpcode.Spelled
import InstrTable.Proofs.ByteOpcode.Vector

/-!
Opcodes of the FPU: an escape, the opcode byte, and what follows it, with or without
the waiting prefix `9B` in front. The byte behind the escape is asked first whether it
is a mandatory prefix or an escape itself, so a few bytes are not read as they are
meant.
-/

namespace InstrTable

/-- An opcode of the FPU as it is written. -/
structure FpuOpcode where
  waits : Bool
  escape : String
  byte : HexByte
  mark : RegisterMark
  trailers : List Trailer
  escape_mem : escape ∈ Legacy.fpuEscapes
  fields_le : (Trailer.fields trailers).length ≤ 1
  displacements_le : (Trailer.displacements trailers).length ≤ 1

namespace FpuOpcode

/-- The waiting prefix, where it is written. -/
def wait (d : FpuOpcode) : String := if d.waits then "9B" else ""

def components (d : FpuOpcode) : List String :=
  (if d.waits then ["9B"] else []) ++ d.escape :: (d.byte.spelling ++ d.mark.spelling) ::
    d.trailers.map Trailer.spelling

def text (d : FpuOpcode) : String := " ".intercalate d.components

/-- What the text says. -/
def opcode (d : FpuOpcode) : ByteOpcode where
  text := d.text
  prefixClass := .fpu
  mandatory := d.wait
  escapeMap := d.escape
  opcode := d.byte.spelling
  modrm := String.ofList (Trailer.fields d.trailers)
  embedsRegister := d.mark.isWritten
  immediateWidth := (Trailer.immediates d.trailers).sum
  displacementWidth := (Trailer.displacements d.trailers).sum

/-- Whether the byte behind the escape is read as something else: as an escape, or,
where nothing waits, as a mandatory prefix. -/
def LosesByte (d : FpuOpcode) : Prop :=
  d.mark = .absent ∧
    (d.byte.spelling = "0F" ∨ (d.waits = false ∧ d.byte.spelling ∈ ["66", "F2", "F3"]))

/-- The opcode in front of the byte. -/
def lead (d : FpuOpcode) : ByteOpcode where
  text := d.text
  prefixClass := if d.waits then .fpu else .none
  mandatory := d.wait
  opcode := d.escape

theorem wordsOf_text (d : FpuOpcode) : wordsOf d.text = d.components := by
  have hescape : ∀ e ∈ Legacy.fpuEscapes, Text.isWord e.toList = true := by decide
  have hrest : ∀ w ∈ d.escape :: (d.byte.spelling ++ d.mark.spelling) ::
      d.trailers.map Trailer.spelling, Text.isWord w.toList = true := by
    simp only [List.forall_mem_cons, List.forall_mem_map]
    exact ⟨hescape d.escape d.escape_mem, d.byte.isWord_marked d.mark,
      fun t _ => t.isWord_spelling⟩
  refine wordsOf_intercalate (List.forall_mem_append.mpr ⟨?_, hrest⟩)
  cases d.waits <;> decide

theorem isPrefixed_text (d : FpuOpcode) : Vector.isPrefixed d.text = false := by
  have hescape : ∀ e ∈ Legacy.fpuEscapes, Vector.isPrefixed e = false := by decide
  unfold text components
  cases d.waits with
  | false =>
      exact (Vector.isPrefixed_intercalate _ _).trans (hescape d.escape d.escape_mem)
  | true => exact (Vector.isPrefixed_intercalate _ _).trans (by decide)

theorem step_escape {escape : String} (h : escape ∈ Legacy.fpuEscapes) {op : ByteOpcode}
    (hmap : op.escapeMap = "") :
    Legacy.step op escape = Legacy.takeOpcode op escape := by
  have htoken : ∀ e ∈ Legacy.fpuEscapes, Legacy.Token.ofComponent e = .byte e "" := by decide
  have hplace : ∀ e ∈ Legacy.fpuEscapes, e ∉ ["66", "F2", "F3", "0F"] := by decide
  have hother := hplace escape h
  simp only [List.mem_cons, List.not_mem_nil, or_false, not_or] at hother
  obtain ⟨h66, hF2, hF3, h0F⟩ := hother
  rw [Legacy.step_place (htoken escape h)]
  · simp
  · intro _
    simp [Legacy.isMandatory, Legacy.isEscape, hmap, h66, hF2, hF3, h0F]

/-- The waiting prefix and the escape are each placed as the opcode first. -/
theorem run_components (d : FpuOpcode) :
    ByteOpcode.run Legacy.step { text := d.text } d.components =
      ByteOpcode.run Legacy.step d.lead
        ((d.byte.spelling ++ d.mark.spelling) :: d.trailers.map Trailer.spelling) := by
  unfold components
  cases hwaits : d.waits with
  | false =>
      have hstep : Legacy.step { text := d.text } d.escape = (d.lead, []) := by
        rw [step_escape d.escape_mem rfl]
        simp [Legacy.takeOpcode, Legacy.fpuEscapes, lead, wait, hwaits]
      simp [hstep]
  | true =>
      -- the waiting prefix makes way for the escape
      have hwait : Legacy.step { text := d.text } "9B" =
          ({ text := d.text, opcode := "9B" }, []) := by
        have htoken : Legacy.Token.ofComponent "9B" = .byte "9B" "" := by decide
        rw [Legacy.step_place htoken fun _ => ⟨rfl, rfl, by simp⟩]
        simp [Legacy.takeOpcode, Legacy.fpuEscapes]
      have hstep : Legacy.step { text := d.text, opcode := "9B" } d.escape = (d.lead, []) := by
        rw [step_escape d.escape_mem rfl]
        simp [Legacy.takeOpcode, lead, wait, hwaits]
      simp [hwait, hstep]

theorem isMandatory_lead (d : FpuOpcode) (byte : String) :
    Legacy.isMandatory d.lead byte = true ↔ d.waits = false ∧ byte ∈ ["66", "F2", "F3"] := by
  cases hwaits : d.waits <;> simp [Legacy.isMandatory, lead, wait, hwaits, or_assoc]

theorem isEscape_lead (d : FpuOpcode) (byte : String) :
    Legacy.isEscape d.lead byte = true ↔ byte = "0F" := by
  simp [Legacy.isEscape, lead]

/-- The byte behind the escape becomes the opcode, unless it is lost. -/
theorem step_byte (d : FpuOpcode) (h : ¬d.LosesByte) :
    Legacy.step d.lead (d.byte.spelling ++ d.mark.spelling) =
      ({ d.lead with
          prefixClass := .fpu
          escapeMap := d.escape
          opcode := d.byte.spelling
          embedsRegister := d.mark.isWritten }, []) := by
  have hplace : d.mark.spelling = "" → Legacy.isMandatory d.lead d.byte.spelling = false ∧
      Legacy.isEscape d.lead d.byte.spelling = false ∧
      ¬(d.lead.escapeMap = "0F" ∧ d.byte.spelling = "0F") := by
    intro hmark
    have hkept := fun hlost => h ⟨RegisterMark.spelling_eq_empty.mp hmark, hlost⟩
    refine ⟨?_, ?_, ?_⟩
    · rw [Bool.eq_false_iff, Ne, isMandatory_lead]
      exact fun hmandatory => hkept (.inr hmandatory)
    · rw [Bool.eq_false_iff, Ne, isEscape_lead]
      exact fun hescape => hkept (.inl hescape)
    · rintro ⟨_, hbyte⟩
      exact hkept (.inl hbyte)
  rw [Legacy.step_place (Legacy.ofComponent_marked d.byte d.mark) hplace,
    Legacy.takeOpcode_fpu rfl d.escape_mem, d.mark.isWritten_eq]
  rfl

/-- A byte that is lost leaves the escape where it is. -/
theorem step_lost (d : FpuOpcode) (h : d.LosesByte) :
    ∃ mandatory escapeMap, escapeMap ∉ Legacy.fpuEscapes ∧
      Legacy.step d.lead (d.byte.spelling ++ d.mark.spelling) =
        ({ d.lead with mandatory, escapeMap }, []) := by
  obtain ⟨hmark, hbyte⟩ := h
  have htoken := Legacy.ofComponent_marked d.byte d.mark
  rw [RegisterMark.spelling_eq_empty.mpr hmark] at htoken ⊢
  cases hmandatory : Legacy.isMandatory d.lead d.byte.spelling with
  | true =>
      refine ⟨d.wait ++ d.byte.spelling, "", by decide, ?_⟩
      rw [Legacy.step_mandatory htoken hmandatory]
      rfl
  | false =>
      have h0F : d.byte.spelling = "0F" := by
        refine hbyte.resolve_right ?_
        rw [← isMandatory_lead, hmandatory]
        decide
      have hescape := (isEscape_lead d d.byte.spelling).mpr h0F
      refine ⟨d.wait, "0F", by decide, ?_⟩
      rw [Legacy.step_escapeMap htoken hmandatory hescape, h0F]
      rfl

/-- What stands behind the byte does not change how the byte is read. -/
theorem read_text_of_step (d : FpuOpcode) {op : ByteOpcode}
    (hstep : Legacy.step d.lead (d.byte.spelling ++ d.mark.spelling) = (op, []))
    (hop : op.opcode ≠ "") (hmodrm : op.modrm = "") (hwidth : op.displacementWidth = 0) :
    ByteOpcode.read d.text = (op.extend d.trailers, []) := by
  have hroom : op.HasRoom d.trailers := by
    refine ⟨?_, ?_⟩
    · rw [if_pos hmodrm]
      exact d.fields_le
    · rw [if_pos hwidth]
      exact d.displacements_le
  refine ByteOpcode.read_of_run d.isPrefixed_text ?_ hop
  rw [d.wordsOf_text, d.run_components, ByteOpcode.run_cons, hstep, Legacy.run_trailers hroom]
  rfl

/-- An opcode of the FPU is read as it is written just if its byte is not lost. It is
never reported, and an escape whose byte is lost becomes the opcode. -/
theorem reads_as_written_iff (d : FpuOpcode) :
    (ByteOpcode.read d.text).2 = [] ∧
      ((ByteOpcode.read d.text).1 = d.opcode ↔ ¬d.LosesByte) ∧
      (d.LosesByte → (ByteOpcode.read d.text).1.opcode = d.escape) := by
  have hescape : ∀ e ∈ Legacy.fpuEscapes, e ≠ "" := by decide
  by_cases h : d.LosesByte
  · obtain ⟨mandatory, escapeMap, hmap, hstep⟩ := d.step_lost h
    rw [d.read_text_of_step hstep (hescape d.escape d.escape_mem) rfl rfl]
    -- the escape map tells the two readings apart
    refine ⟨rfl, iff_of_false ?_ (not_not_intro h), fun _ => rfl⟩
    intro heq
    have hsame : escapeMap = d.escape := congrArg ByteOpcode.escapeMap heq
    exact hmap (hsame ▸ d.escape_mem)
  · have hread := d.read_text_of_step (d.step_byte h) d.byte.spelling_ne_empty rfl rfl
    rw [hread]
    refine ⟨rfl, iff_of_true ?_ h, fun hlost => absurd hlost h⟩
    simp [ByteOpcode.extend, lead, opcode]

example : ByteOpcode.read "9B DF E0" =
    ({ text := "9B DF E0", prefixClass := .fpu, mandatory := "9B", escapeMap := "DF",
       opcode := "E0" }, []) := by
  decide

/-- The second byte of `D9 F2` is lost: it is read as a mandatory prefix, and the
escape as the opcode. -/
theorem second_byte_lost :
    ∃ d : FpuOpcode, d.text = "D9 F2" ∧ d.opcode.opcode = "F2" ∧ d.opcode.mandatory = "" ∧
      (ByteOpcode.read d.text).1.opcode = "D9" ∧
      (ByteOpcode.read d.text).1.mandatory = "F2" :=
  ⟨⟨false, "D9", ⟨15, 2⟩, .absent, [], by decide, by decide, by decide⟩, by decide +kernel⟩

end FpuOpcode

end InstrTable
