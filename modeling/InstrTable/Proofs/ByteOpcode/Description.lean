import InstrTable.Proofs.ByteOpcode.Spelled
import InstrTable.Proofs.ByteOpcode.Vector

/-!
Legacy opcodes as they are described: the width, prefixes, the escape map, the opcode
byte, and what follows it. A description is read back from its text, unless its byte is
one that is read as one more prefix or as one more byte of the map.
-/

namespace InstrTable

/-- The prefix of a repetition. -/
inductive RepeatPrefix where
  | absent
  | unequal
  | equal
  deriving DecidableEq, Repr

def RepeatPrefix.components : RepeatPrefix → List String
  | .absent => []
  | .unequal => ["F2"]
  | .equal => ["F3"]

/-- The map that the opcode byte is looked up in. -/
inductive OpcodeMap where
  | primary
  | secondary
  | map38
  | map3A
  | map01
  deriving DecidableEq, Repr

def OpcodeMap.components : OpcodeMap → List String
  | .primary => []
  | .secondary => ["0F"]
  | .map38 => ["0F", "38"]
  | .map3A => ["0F", "3A"]
  | .map01 => ["0F", "01"]

/-- A legacy opcode as it is described. -/
structure LegacyOpcode where
  wide : Bool
  operandSize : Bool
  repeats : RepeatPrefix
  map : OpcodeMap
  byte : HexByte
  mark : RegisterMark
  field : Option ModrmField
  immediates : List ImmediateSize
  displacement : Option DisplacementSize
  deriving DecidableEq, Repr

namespace LegacyOpcode

/-- The bytes of the mandatory prefix. -/
def mandatory (d : LegacyOpcode) : List String :=
  (if d.operandSize then ["66"] else []) ++ d.repeats.components

def trailers (d : LegacyOpcode) : List Trailer :=
  (d.field.map .modrm).toList ++ d.immediates.map .immediate ++
    (d.displacement.map .displacement).toList

def components (d : LegacyOpcode) : List String :=
  (if d.wide then ["REX.W"] else []) ++ (d.mandatory ++ (d.map.components ++
    (d.byte.spelling ++ d.mark.spelling) :: d.trailers.map Trailer.spelling))

def text (d : LegacyOpcode) : String := " ".intercalate d.components

/-- What the text says. -/
def opcode (d : LegacyOpcode) : ByteOpcode where
  text := d.text
  width := if d.wide then "W1" else ""
  mandatory := String.join d.mandatory
  escapeMap := String.join d.map.components
  opcode := d.byte.spelling
  modrm := d.field.elim "" fun field => field.letter.toString
  embedsRegister := d.mark.isWritten
  immediateWidth := (d.immediates.map ImmediateSize.bits).sum
  displacementWidth := d.displacement.elim 0 DisplacementSize.bits

/-- Whether the byte is read as something else: as a part of the mandatory prefix, of the
escape map, or as the mark of 3DNow. -/
def LosesByte (d : LegacyOpcode) : Prop :=
  d.mark = .absent ∧
    ((d.map = .primary ∧ (d.byte.spelling = "0F" ∨
        (d.mandatory = [] ∧ d.byte.spelling ∈ ["66", "F2", "F3"]) ∨
        (d.mandatory = ["66"] ∧ d.byte.spelling ∈ ["F2", "F3"]))) ∨
      (d.map = .secondary ∧ d.byte.spelling ∈ ["0F", "38", "3A"]))

/-! ### The components as they are read -/

/-- What holds of the bytes of prefixes and maps, of the opcode byte, and of what follows
it, holds of all components. -/
theorem forall_components {P : String → Prop} (d : LegacyOpcode)
    (hlead : ∀ w ∈ ["REX.W", "66", "F2", "F3", "0F", "38", "3A", "01"], P w)
    (hbyte : P (d.byte.spelling ++ d.mark.spelling)) (htrailer : ∀ t : Trailer, P t.spelling) :
    ∀ w ∈ d.components, P w := by
  have hwide : ∀ w ∈ (if d.wide then ["REX.W"] else []), P w := by
    cases d.wide <;> simp [hlead]
  have hmandatory : ∀ w ∈ d.mandatory, P w := by
    unfold mandatory
    cases d.operandSize <;> cases d.repeats <;> simp [RepeatPrefix.components, hlead]
  have hmap : ∀ w ∈ d.map.components, P w := by
    cases d.map <;> simp [OpcodeMap.components, hlead]
  simp only [components, List.forall_mem_append, List.forall_mem_cons, List.forall_mem_map]
  exact ⟨hwide, hmandatory, hmap, hbyte, fun t _ => htrailer t⟩

theorem wordsOf_text (d : LegacyOpcode) : wordsOf d.text = d.components :=
  wordsOf_intercalate
    (d.forall_components (by decide) (d.byte.isWord_marked d.mark) Trailer.isWord_spelling)

theorem isPrefixed_text (d : LegacyOpcode) : Vector.isPrefixed d.text = false :=
  Vector.isPrefixed_eq_false
    (d.forall_components (by decide) (d.byte.isPrefixed_marked d.mark)
      Trailer.isPrefixed_spelling)

/-- The opcode in front of the byte. -/
def lead (d : LegacyOpcode) : ByteOpcode where
  text := d.text
  width := if d.wide then "W1" else ""
  mandatory := String.join d.mandatory
  escapeMap := String.join d.map.components

theorem run_repeats (repeats : RepeatPrefix) {op : ByteOpcode} (hmap : op.escapeMap = "")
    (hmandatory : op.mandatory = "" ∨ op.mandatory = "66") :
    ByteOpcode.run Legacy.step op repeats.components =
      ({ op with mandatory := op.mandatory ++ String.join repeats.components }, []) := by
  have hstep : ∀ byte ∈ ["F2", "F3"],
      Legacy.step op byte = ({ op with mandatory := op.mandatory ++ byte }, []) := by
    have htoken : ∀ byte ∈ ["F2", "F3"], Legacy.Token.ofComponent byte = .byte byte "" := by
      decide
    intro byte hbyte
    refine Legacy.step_mandatory (htoken byte hbyte) ?_
    have hbytes : byte = "F2" ∨ byte = "F3" := by simpa using hbyte
    rcases hmandatory with hnone | h66
    · rcases hbytes with rfl | rfl <;> simp [Legacy.isMandatory, hmap, hnone]
    · simp [Legacy.isMandatory, hmap, h66, hbytes]
  cases repeats with
  | absent => simp [RepeatPrefix.components, String.join]
  | unequal => simp [RepeatPrefix.components, String.join, hstep]
  | equal => simp [RepeatPrefix.components, String.join, hstep]

theorem run_mandatory (d : LegacyOpcode) {op : ByteOpcode} (hmap : op.escapeMap = "")
    (hmandatory : op.mandatory = "") :
    ByteOpcode.run Legacy.step op d.mandatory =
      ({ op with mandatory := String.join d.mandatory }, []) := by
  unfold mandatory
  cases d.operandSize with
  | false =>
      have hrepeats := run_repeats d.repeats hmap (.inl hmandatory)
      simpa [hmandatory] using hrepeats
  | true =>
      have htoken : Legacy.Token.ofComponent "66" = .byte "66" "" := by decide
      have hstep : Legacy.step op "66" = ({ op with mandatory := "66" }, []) := by
        rw [Legacy.step_mandatory htoken (by simp [Legacy.isMandatory, hmap, hmandatory]),
          hmandatory, String.empty_append]
      have hafter : ({ op with mandatory := "66" } : ByteOpcode).escapeMap = "" := hmap
      have hrepeats := run_repeats d.repeats hafter (.inr rfl)
      have hjoin : String.join ("66" :: d.repeats.components) =
          "66" ++ String.join d.repeats.components := by
        cases d.repeats <;> decide
      simp [hstep, hrepeats, hjoin]

theorem run_map (map : OpcodeMap) {op : ByteOpcode} (hmap : op.escapeMap = "") :
    ByteOpcode.run Legacy.step op map.components =
      ({ op with escapeMap := String.join map.components }, []) := by
  have hfirst : Legacy.step op "0F" = ({ op with escapeMap := "0F" }, []) := by
    have htoken : Legacy.Token.ofComponent "0F" = .byte "0F" "" := by decide
    rw [Legacy.step_escapeMap htoken (by simp [Legacy.isMandatory])
      (by simp [Legacy.isEscape, hmap]), hmap, String.empty_append]
  have hsecond : ∀ byte ∈ ["38", "3A", "01"],
      Legacy.step { op with escapeMap := "0F" } byte =
        ({ op with escapeMap := "0F" ++ byte }, []) := by
    have htoken : ∀ byte ∈ ["38", "3A", "01"], Legacy.Token.ofComponent byte = .byte byte "" := by
      decide
    intro byte hbyte
    refine Legacy.step_escapeMap (htoken byte hbyte) (by simp [Legacy.isMandatory]) ?_
    have hbytes : byte = "38" ∨ byte = "3A" ∨ byte = "01" := by simpa using hbyte
    rcases hbytes with rfl | rfl | rfl <;> simp [Legacy.isEscape]
  cases map with
  | primary => simp [OpcodeMap.components, String.join, ← hmap]
  | secondary => simp [OpcodeMap.components, String.join, hfirst]
  | map38 | map3A | map01 => simp [OpcodeMap.components, String.join, hfirst, hsecond]

theorem run_components (d : LegacyOpcode) :
    ByteOpcode.run Legacy.step { text := d.text } d.components =
      ByteOpcode.run Legacy.step d.lead
        ((d.byte.spelling ++ d.mark.spelling) :: d.trailers.map Trailer.spelling) := by
  have hwide : ByteOpcode.run Legacy.step { text := d.text } (if d.wide then ["REX.W"] else []) =
      ({ text := d.text, width := if d.wide then "W1" else "" }, []) := by
    cases d.wide with
    | false => rfl
    | true => simp [Legacy.step_rexW]
  unfold components
  rw [ByteOpcode.run_append Legacy.step hwide,
    ByteOpcode.run_append Legacy.step (d.run_mandatory rfl rfl),
    ByteOpcode.run_append Legacy.step (run_map d.map rfl)]
  rfl

/-! ### The byte -/

theorem escapeMap_lead_eq_empty {d : LegacyOpcode} :
    d.lead.escapeMap = "" ↔ d.map = .primary := by
  show String.join d.map.components = "" ↔ d.map = .primary
  cases d.map <;> decide

theorem escapeMap_lead_eq_0F {d : LegacyOpcode} :
    d.lead.escapeMap = "0F" ↔ d.map = .secondary := by
  show String.join d.map.components = "0F" ↔ d.map = .secondary
  cases d.map <;> decide

theorem mandatory_lead_eq_empty {d : LegacyOpcode} :
    d.lead.mandatory = "" ↔ d.mandatory = [] := by
  show String.join d.mandatory = "" ↔ d.mandatory = []
  unfold mandatory
  cases d.operandSize <;> cases d.repeats <;> decide

theorem mandatory_lead_eq_66 {d : LegacyOpcode} :
    d.lead.mandatory = "66" ↔ d.mandatory = ["66"] := by
  show String.join d.mandatory = "66" ↔ d.mandatory = ["66"]
  unfold mandatory
  cases d.operandSize <;> cases d.repeats <;> decide

theorem isMandatory_lead {d : LegacyOpcode} {byte : String} :
    Legacy.isMandatory d.lead byte = true ↔
      d.map = .primary ∧ ((d.mandatory = [] ∧ byte ∈ ["66", "F2", "F3"]) ∨
        (d.mandatory = ["66"] ∧ byte ∈ ["F2", "F3"])) := by
  simp [Legacy.isMandatory, escapeMap_lead_eq_empty, mandatory_lead_eq_empty,
    mandatory_lead_eq_66, or_assoc]

theorem isEscape_lead {d : LegacyOpcode} {byte : String} :
    Legacy.isEscape d.lead byte = true ↔
      (d.map = .primary ∧ byte = "0F") ∨
        (d.map = .secondary ∧ byte ∈ ["01", "3A", "38"]) := by
  simp [Legacy.isEscape, escapeMap_lead_eq_empty, escapeMap_lead_eq_0F, or_assoc]

/-- The opcode with the byte in its place. -/
def placed (d : LegacyOpcode) : ByteOpcode :=
  { d.lead with opcode := d.byte.spelling, embedsRegister := d.mark.isWritten }

/-- A byte that is not lost is placed, if not at once: `01` lengthens the map `0F` first,
and is taken back from it in the end. -/
theorem step_byte (d : LegacyOpcode) (h : ¬d.LosesByte) :
    ∃ op, Legacy.step d.lead (d.byte.spelling ++ d.mark.spelling) = (op, []) ∧
      op.settle = d.placed ∧ op.modrm = "" ∧ op.displacementWidth = 0 := by
  have htoken := Legacy.ofComponent_marked d.byte d.mark
  by_cases hlate : d.mark = .absent ∧ d.map = .secondary ∧ d.byte.spelling = "01"
  · obtain ⟨hmark, hmap, hbyte⟩ := hlate
    have hescapeMap : d.lead.escapeMap = "0F" := escapeMap_lead_eq_0F.mpr hmap
    rw [hmark, hbyte] at htoken
    have hstep : Legacy.step d.lead (d.byte.spelling ++ d.mark.spelling) =
        ({ d.lead with escapeMap := "0F01" }, []) := by
      rw [hmark, hbyte, Legacy.step_escapeMap htoken
        (by simp [Legacy.isMandatory, hescapeMap]) (by simp [Legacy.isEscape, hescapeMap]),
        hescapeMap]
      rfl
    refine ⟨_, hstep, ?_, rfl, rfl⟩
    have hwritten : d.mark.isWritten = false := by
      rw [hmark]
      rfl
    show ByteOpcode.settle { d.lead with escapeMap := "0F01" } = d.placed
    rw [ByteOpcode.settle, if_pos ⟨rfl, rfl⟩, placed, hbyte, hwritten, ← hescapeMap]
    rfl
  · have hplace : d.mark.spelling = "" → Legacy.isMandatory d.lead d.byte.spelling = false ∧
        Legacy.isEscape d.lead d.byte.spelling = false ∧
        ¬(d.lead.escapeMap = "0F" ∧ d.byte.spelling = "0F") := by
      intro hmark
      rw [RegisterMark.spelling_eq_empty] at hmark
      refine ⟨?_, ?_, ?_⟩
      · rw [Bool.eq_false_iff, Ne, isMandatory_lead]
        rintro ⟨hmap, hbyte⟩
        exact h ⟨hmark, .inl ⟨hmap, .inr hbyte⟩⟩
      · rw [Bool.eq_false_iff, Ne, isEscape_lead]
        rintro (⟨hmap, hbyte⟩ | ⟨hmap, hbyte⟩)
        · exact h ⟨hmark, .inl ⟨hmap, .inl hbyte⟩⟩
        · simp only [List.mem_cons, List.not_mem_nil, or_false] at hbyte
          rcases hbyte with h01 | h3A | h38
          · exact hlate ⟨hmark, hmap, h01⟩
          · exact h ⟨hmark, .inr ⟨hmap, by simp [h3A]⟩⟩
          · exact h ⟨hmark, .inr ⟨hmap, by simp [h38]⟩⟩
      · rintro ⟨hmap, hbyte⟩
        exact h ⟨hmark, .inr ⟨escapeMap_lead_eq_0F.mp hmap, by simp [hbyte]⟩⟩
    have hstep : Legacy.step d.lead (d.byte.spelling ++ d.mark.spelling) = (d.placed, []) := by
      rw [Legacy.step_place htoken hplace, Legacy.takeOpcode_empty rfl, ← d.mark.isWritten_eq]
      rfl
    refine ⟨_, hstep, ?_, rfl, rfl⟩
    have hopcode : d.placed.opcode ≠ "" := d.byte.spelling_ne_empty
    simp [ByteOpcode.settle, hopcode]

/-- A byte that is lost leaves no opcode byte behind. -/
theorem step_lost (d : LegacyOpcode) (h : d.LosesByte) :
    ∃ op, Legacy.step d.lead (d.byte.spelling ++ d.mark.spelling) = (op, []) ∧
      op.settle.opcode = "" ∧ op.modrm = "" ∧ op.displacementWidth = 0 := by
  obtain ⟨hmark, hbyte⟩ := h
  have htoken := Legacy.ofComponent_marked d.byte d.mark
  rw [RegisterMark.spelling_eq_empty.mpr hmark] at htoken ⊢
  have hsettle : ∀ op : ByteOpcode, op.opcode = "" → op.escapeMap ≠ "0F01" →
      op.settle.opcode = "" := by
    intro op hop hmap
    simp [ByteOpcode.settle, hop, hmap]
  by_cases hmandatory : Legacy.isMandatory d.lead d.byte.spelling = true
  · have hmap := escapeMap_lead_eq_empty.mpr (isMandatory_lead.mp hmandatory).1
    refine ⟨_, Legacy.step_mandatory htoken hmandatory, hsettle _ rfl ?_, rfl, rfl⟩
    simp [hmap]
  · rw [Bool.not_eq_true] at hmandatory
    rcases hbyte with ⟨hmap, h0F | hprefix⟩ | ⟨hmap, hbyte⟩
    · have hescape : Legacy.isEscape d.lead d.byte.spelling = true :=
        isEscape_lead.mpr (.inl ⟨hmap, h0F⟩)
      refine ⟨_, Legacy.step_escapeMap htoken hmandatory hescape, hsettle _ rfl ?_, rfl, rfl⟩
      simp [escapeMap_lead_eq_empty.mpr hmap, h0F]
    · have htaken := isMandatory_lead.mpr ⟨hmap, hprefix⟩
      simp [htaken] at hmandatory
    · have hescapeMap := escapeMap_lead_eq_0F.mpr hmap
      by_cases h0F : d.byte.spelling = "0F"
      · rw [h0F] at htoken ⊢
        refine ⟨_, Legacy.step_secondEscape htoken hescapeMap, hsettle _ rfl ?_, rfl, rfl⟩
        simp [hescapeMap]
      · have h38 : d.byte.spelling = "38" ∨ d.byte.spelling = "3A" := by simpa [h0F] using hbyte
        have hescape : Legacy.isEscape d.lead d.byte.spelling = true := by
          refine isEscape_lead.mpr (.inr ⟨hmap, ?_⟩)
          rcases h38 with h38 | h3A <;> simp [*]
        refine ⟨_, Legacy.step_escapeMap htoken hmandatory hescape, hsettle _ rfl ?_, rfl, rfl⟩
        rcases h38 with h38 | h3A <;> simp [*]

/-! ### The text -/

theorem settle_extend (op : ByteOpcode) (trailers : List Trailer) :
    (op.extend trailers).settle = op.settle.extend trailers := by
  by_cases h : op.opcode = "" ∧ op.escapeMap = "0F01" <;>
    simp [ByteOpcode.settle, ByteOpcode.extend, h]

theorem fields_trailers (d : LegacyOpcode) :
    Trailer.fields d.trailers = (d.field.map ModrmField.letter).toList := by
  cases hfield : d.field <;> cases hdisplacement : d.displacement <;>
    simp [trailers, Trailer.fields, Trailer.field?, List.flatMap_append, hfield, hdisplacement]

theorem immediates_trailers (d : LegacyOpcode) :
    Trailer.immediates d.trailers = d.immediates.map ImmediateSize.bits := by
  have hsizes : Trailer.immediates (d.immediates.map .immediate) =
      d.immediates.map ImmediateSize.bits := by
    rw [Trailer.immediates, List.flatMap_map, List.map_eq_flatMap]
    rfl
  rw [← hsizes]
  cases hfield : d.field <;> cases hdisplacement : d.displacement <;>
    simp [trailers, Trailer.immediates, Trailer.immediate?, hfield, hdisplacement]

theorem displacements_trailers (d : LegacyOpcode) :
    Trailer.displacements d.trailers = (d.displacement.map DisplacementSize.bits).toList := by
  cases hfield : d.field <;> cases hdisplacement : d.displacement <;>
    simp [trailers, Trailer.displacements, Trailer.displacement?, hfield, hdisplacement]

theorem extend_placed (d : LegacyOpcode) : d.placed.extend d.trailers = d.opcode := by
  have hmodrm : String.ofList (d.field.map ModrmField.letter).toList = d.opcode.modrm := by
    unfold opcode
    cases d.field <;> rfl
  have hdisplacement : (d.displacement.map DisplacementSize.bits).toList.sum =
      d.opcode.displacementWidth := by
    unfold opcode
    cases d.displacement <;> rfl
  unfold ByteOpcode.extend
  rw [fields_trailers, immediates_trailers, displacements_trailers, hmodrm, hdisplacement]
  simp [placed, lead, opcode]

theorem read_text_of_step (d : LegacyOpcode) {op : ByteOpcode}
    (hstep : Legacy.step d.lead (d.byte.spelling ++ d.mark.spelling) = (op, []))
    (hmodrm : op.modrm = "") (hwidth : op.displacementWidth = 0) :
    ByteOpcode.read d.text =
      (op.settle.extend d.trailers, if op.settle.opcode = "" then [.noOpcode d.text] else []) := by
  have hroom : op.HasRoom d.trailers := by
    refine ⟨?_, ?_⟩
    · rw [if_pos hmodrm, fields_trailers]
      cases d.field <;> simp
    · rw [if_pos hwidth, displacements_trailers]
      cases d.displacement <;> simp
  have hrun : ByteOpcode.run Legacy.step { text := d.text } (wordsOf d.text) =
      (op.extend d.trailers, []) := by
    rw [d.wordsOf_text, d.run_components, ByteOpcode.run_cons, hstep, Legacy.run_trailers hroom]
    rfl
  rw [ByteOpcode.read_eq_settle d.isPrefixed_text hrun, settle_extend]
  rfl

/-- A description is read back from its text just if its byte is not lost. One whose byte
is lost is reported to have none. -/
theorem reads_back_iff (d : LegacyOpcode) :
    (ByteOpcode.read d.text = (d.opcode, []) ↔ ¬d.LosesByte) ∧
      (d.LosesByte → (ByteOpcode.read d.text).2 = [.noOpcode d.text]) := by
  by_cases h : d.LosesByte
  · obtain ⟨op, hstep, hempty, hmodrm, hwidth⟩ := d.step_lost h
    rw [d.read_text_of_step hstep hmodrm hwidth, if_pos hempty]
    simp [h]
  · obtain ⟨op, hstep, hplaced, hmodrm, hwidth⟩ := d.step_byte h
    have hopcode : d.placed.opcode ≠ "" := d.byte.spelling_ne_empty
    rw [d.read_text_of_step hstep hmodrm hwidth, hplaced, if_neg hopcode, d.extend_placed]
    simp [h]

example : ByteOpcode.read "REX.W 66 0F 3A 22 /r ib" =
    ({ text := "REX.W 66 0F 3A 22 /r ib", width := "W1", mandatory := "66",
       escapeMap := "0F3A", opcode := "22", modrm := "r", immediateWidth := 8 }, []) := by
  decide

end LegacyOpcode

end InstrTable
