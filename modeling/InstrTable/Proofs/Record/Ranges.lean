import InstrTable.Proofs.BitTemplate.Ranges
import InstrTable.Proofs.Operand.Core
import InstrTable.Proofs.Record.Consistency

/-!
Ranges of bits in records. They are written in front of operands and in the opcodes of ARM, and
each place reads them on its own. An opcode reports a range that is the wrong way round; an
operand keeps the bits of its access as they are written. So a record without reports has its
ranges in order just if its operands were written that way, and no field of its opcode without
bits.
-/

namespace InstrTable

/-- An operand token with an access to a range of bits whose first bit is below its last. -/
def Operand.IsReversed (token : String) : Prop :=
  ∃ letter ∈ ['R', 'W', 'X'], ∃ high low rest hi lo,
    Text.trim token.toList = letter :: '[' :: (high ++ ':' :: (low ++ ']' :: ':' :: rest)) ∧
      Text.nat? high = some hi ∧ Text.nat? low = some lo ∧ hi < lo

/-- An operand with an access to bits in order, if it is about some of them. -/
def Operand.IsOrdered (op : Operand) : Prop := ∀ hi lo, op.bitRange = some (hi, lo) → lo ≤ hi

/-- A record whose ranges of bits are all in order. -/
structure Record.WellRanged (r : Record) : Prop where
  operands : ∀ op ∈ r.operands, op.IsOrdered
  opcode : ∀ t, r.opcode = .bits t → t.WellRanged

/-! ### The operands -/

namespace Operand

variable {token : String}

theorem bitRange_peel (token : String) :
    (peel token).bitRange = (takeAccess? (Text.trim token.toList)).bind (·.2.1) := by
  cases haccess : takeAccess? (Text.trim token.toList) with
  | none => simp [peel, haccess]
  | some taken => simp [peel, haccess]

theorem isReversed_iff :
    IsReversed token ↔ ∃ hi lo, (peel token).bitRange = some (hi, lo) ∧ hi < lo := by
  rw [bitRange_peel]
  constructor
  · rintro ⟨letter, hletter, high, low, rest, hi, lo, htext, hhigh, hlow, hlt⟩
    obtain ⟨access, htake⟩ := takeAccess?_range hletter hhigh hlow rest
    exact ⟨hi, lo, by rw [htext, htake, Option.bind_some], hlt⟩
  · rintro ⟨hi, lo, hbits, hlt⟩
    obtain ⟨⟨access, bits, rest⟩, htake, rfl⟩ := Option.bind_eq_some_iff.mp hbits
    obtain ⟨letter, hletter, ⟨hnone, -⟩ | ⟨high, low, hi', lo', hsame, hhigh, hlow, htext⟩⟩ :=
      exists_of_takeAccess? htake
    · contradiction
    · cases hsame
      exact ⟨letter, hletter, high, low, rest, hi, lo, htext, hhigh, hlow, hlt⟩

instance : DecidablePred IsReversed := fun token =>
  decidable_of_iff ((peel token).bitRange.any fun bits => bits.1 < bits.2) <| by
    rw [isReversed_iff]
    cases (peel token).bitRange <;> simp [Prod.ext_iff]

end Operand

namespace Record

variable {d : Dictionaries} {entry : Entry} {aliasOf : String} {r : Record} {ds : Diagnostics}

@[simp] theorem bitRange_complete (opcode : Opcode) (op : Operand) :
    (complete opcode op).bitRange = op.bitRange := by
  unfold complete
  split
  · dsimp only
    split <;> rfl
  · rfl

/-- A token that is not reported gives an operand with its bits in order, unless they are written
the wrong way round. A lost one gives none. -/
theorem Reads.isOrdered_iff {place : String × Nat} {reading : TokenReading}
    (h : Reads d place reading) (hclean : reading.reports = []) :
    (∀ op, reading.operand? = some op → op.IsOrdered) ↔
      (Operand.IsReversed place.1 → d.IsBare place.1) := by
  rw [← h.isLost_iff, TokenReading.IsLost]
  cases hop : reading.operand? with
  | none => simp [hclean]
  | some op =>
      rw [Reads, hop] at h
      simp [Operand.IsOrdered, Operand.isReversed_iff, (Grammar.operand_of_read h).1]

/-- The operands of a list that is read without a report have their bits in order just if all of
its tokens are written so, apart from those that are lost. -/
theorem isOrdered_iff_of_readOperands {s : String} {operands : List Operand}
    {decorations : List (String × Setting)} {tokens : List String}
    (h : readOperands d s = (.ok (operands, decorations), []))
    (htokens : operandTokens d s = .ok tokens) :
    (∀ op ∈ operands, op.IsOrdered) ↔
      ∀ token ∈ tokens, Operand.IsReversed token → d.IsBare token := by
  obtain ⟨_, hsame, hread⟩ := readTokens_of_readOperands h
  obtain rfl := Except.ok.inj (htokens.symm.trans hsame)
  obtain ⟨readings, hreadings, rfl, hreports⟩ := exists_readings hread
  have hclean : ∀ r ∈ readings, r.reports = [] := List.flatMap_eq_nil_iff.mp hreports.symm
  calc (∀ op ∈ readings.filterMap (·.operand?), op.IsOrdered)
    _ ↔ ∀ r ∈ readings, ∀ op, r.operand? = some op → op.IsOrdered := by
      simp only [List.mem_filterMap]
      exact ⟨fun h r hr op hop => h op ⟨r, hr, hop⟩, fun h op ⟨r, hr, hop⟩ => h r hr op hop⟩
    _ ↔ ∀ place ∈ tokens.zipIdx, Operand.IsReversed place.1 → d.IsBare place.1 :=
      (forall_mem_iff_of_forall₂ hreadings fun place r hr hplace =>
        (hplace.isOrdered_iff (hclean r hr)).symm).symm
    _ ↔ ∀ token ∈ tokens.zipIdx.map Prod.fst, Operand.IsReversed token → d.IsBare token := by
      rw [List.forall_mem_map]
    _ ↔ ∀ token ∈ tokens, Operand.IsReversed token → d.IsBare token := by
      rw [List.zipIdx_map_fst]

/-! ### The record -/

section Reading

variable [Capacity]

/-- What a record has from its operands and from its opcode, and what these report. -/
theorem exists_parts_of_read (h : read d entry aliasOf = (.ok r, ds)) :
    ∃ parsed decorations ds₀ ds₁,
      readOperands d entry.operands = (.ok (parsed, decorations), ds₀) ∧
      d.dialect.readOpcode entry.opcode r.encoding = (.ok r.opcode, ds₁) ∧
      r.operands = parsed.map (complete r.opcode) ∧
      ds₀ ⊆ r.diagnostics.entries ∧ ds₁ ⊆ r.diagnostics.entries := by
  obtain ⟨parsed, decorations, opcode, ds₀, ds₁, hoperands, hopcode, rfl, -⟩ :=
    read_eq_ok_iff.mp h
  refine ⟨parsed, decorations, ds₀, ds₁, hoperands, hopcode, rfl, fun x hx => ?_, fun x hx => ?_⟩
  · simp [assemble, hx]
  · simp [assemble, hx]

/-- Only ARM has templates, which are read from the opcode. -/
theorem template_of_readOpcode {text encoding : String} {t : BitTemplate} {ds : List Diagnostic}
    (h : d.dialect.readOpcode text encoding = (.ok (.bits t), ds)) :
    (BitTemplate.read text encoding).1 = t ∧ (BitTemplate.read text encoding).2 = ds := by
  cases hdialect : d.dialect with
  | x86 => simp [hdialect] at h
  | arm =>
      rw [hdialect] at h
      obtain ⟨t', hsame, htemplate⟩ := Dialect.exists_of_readOpcode_arm h
      rw [htemplate, Opcode.bits.inj hsame]
      exact ⟨rfl, rfl⟩

theorem wellRanged_opcode_iff {text encoding : String} {opcode : Opcode} {ds : List Diagnostic}
    (h : d.dialect.readOpcode text encoding = (.ok opcode, ds)) :
    (∀ t, opcode = .bits t → t.WellRanged) ↔
      (d.dialect = .arm → ∀ segment ∈ bitSegments text,
        ¬BitTemplate.IsWidthless segment.toList) := by
  cases hdialect : d.dialect with
  | x86 =>
      obtain ⟨rfl, -⟩ : .bytes (ByteOpcode.read text).1 = opcode ∧ _ := by
        simpa [hdialect] using h
      simp
  | arm =>
      rw [hdialect] at h
      obtain ⟨t, rfl, htemplate⟩ := Dialect.exists_of_readOpcode_arm h
      rw [← BitTemplate.wellRanged_read_iff text encoding, htemplate]
      simp

/-- The ranges of a record. In the opcode they are in order in any case: one that is the wrong
way round is reported, and so is a field without a name. Without reports, all ranges are in
order just if no operand is written with an access to bits the wrong way round, and no field of
the opcode with a width of no bits. -/
theorem ranges_of_read (h : read d entry aliasOf = (.ok r, ds)) :
    ∃ tokens, operandTokens d entry.operands = .ok tokens ∧
      (∀ t, r.opcode = .bits t →
        (∀ f ∈ t.fields, ∀ hi lo, f.content.slice? = some (hi, lo) → lo ≤ hi) ∧
        ∀ segment ∈ bitSegments entry.opcode,
          (BitTemplate.IsReversed segment.toList →
            .reversedBitRange (String.ofList (BitTemplate.unquoted segment.toList)) entry.opcode ∈
              r.diagnostics.entries) ∧
          (BitTemplate.isField segment.toList = false →
            .emptyField entry.opcode ∈ r.diagnostics.entries)) ∧
      (r.invalid = 0 → (r.WellRanged ↔
        (∀ token ∈ tokens, Operand.IsReversed token → d.IsBare token) ∧
        (d.dialect = .arm →
          ∀ segment ∈ bitSegments entry.opcode, ¬BitTemplate.IsWidthless segment.toList))) := by
  obtain ⟨parsed, decorations, ds₀, ds₁, hparsed, hopcode, hoperands, hreports,
    htemplateReports⟩ := exists_parts_of_read h
  obtain ⟨tokens, htokens, -⟩ := readTokens_of_readOperands hparsed
  refine ⟨tokens, htokens, fun t ht => ?template, fun hvalid => ?clean⟩
  case template =>
    rw [ht] at hopcode
    obtain ⟨rfl, rfl⟩ := template_of_readOpcode hopcode
    -- what a segment reports is not dropped on the way to the record
    refine ⟨BitTemplate.slice_le_of_mem_fields _ _, fun segment hsegment => ⟨?_, ?_⟩⟩
    · intro hreversed
      exact htemplateReports (BitTemplate.mem_read_of_mem_readSegment _ _ hsegment
        (BitTemplate.reversedBitRange_mem_readSegment _ hreversed))
    · intro hnameless
      exact htemplateReports (BitTemplate.mem_read_of_mem_readSegment _ _ hsegment
        (BitTemplate.readSegment_nameless _ hnameless).2)
  case clean =>
    have hentries : r.diagnostics.entries = [] := List.length_eq_zero_iff.mp hvalid
    obtain rfl : ds₀ = [] := List.subset_nil.mp (hentries ▸ hreports)
    rw [← isOrdered_iff_of_readOperands hparsed htokens, ← wellRanged_opcode_iff hopcode]
    have hordered : (∀ op ∈ r.operands, op.IsOrdered) ↔ ∀ op ∈ parsed, op.IsOrdered := by
      rw [hoperands, List.forall_mem_map]
      simp only [Operand.IsOrdered, bitRange_complete]
    rw [← hordered]
    exact ⟨fun hr => ⟨hr.operands, hr.opcode⟩, fun hr => ⟨hr.1, hr.2⟩⟩

end Reading

theorem ranges_of_read_adc :
    let d : Dictionaries := { dialect := .arm }
    let entry : Entry := ⟨"adc", "W[15:8]:Rd, Rn, #ImmC", "T32",
      "11110|ImmC[11]|01010|S|Rn|0|ImmC[10:8]|Rd|ImmC[7:0]", ""⟩
    ∃ r ds, read d entry "" = (.ok r, ds) ∧ r.invalid = 0 ∧ r.WellRanged := by
  intro d entry
  obtain ⟨r, ds, hread, hvalid⟩ : ∃ r ds, read d entry "" = (.ok r, ds) ∧ r.invalid = 0 :=
    exists_of_map_toOption (by decide +kernel)
  obtain ⟨tokens, htokens, -, hranges⟩ := ranges_of_read hread
  have hwritten : operandTokens d entry.operands = .ok ["W[15:8]:Rd", "Rn", "#ImmC"] := by
    decide +kernel
  obtain rfl := Except.ok.inj (htokens.symm.trans hwritten)
  have hordered : ∀ token ∈ ["W[15:8]:Rd", "Rn", "#ImmC"], ¬Operand.IsReversed token := by
    decide +kernel
  have hwidths : ∀ segment ∈ bitSegments entry.opcode,
      ¬BitTemplate.IsWidthless segment.toList := by
    decide +kernel
  refine ⟨r, ds, hread, hvalid, (hranges hvalid).mpr ⟨fun token htoken hreversed => ?_, ?_⟩⟩
  · exact absurd hreversed (hordered token htoken)
  · exact fun _ => hwidths

/-- Neither an access to bits the wrong way round nor a field with a width of no bits is
reported, and such a field is printed with an end below its start. -/
theorem reversed_access_unreported :
    (∃ r ds, read Builtin.X86.dictionaries ⟨"mov", "W[0:7]:r32, r32", "NONE", "90", ""⟩ "" =
        (.ok r, ds) ∧
      r.invalid = 0 ∧ r.operands.map (·.bitRange) = [some (0, 7), none] ∧ ¬r.WellRanged) ∧
    ∃ r ds, read { dialect := .arm } ⟨"nop", "", "T16", "X:0|1011111100000000", ""⟩ "" =
        (.ok r, ds) ∧
      r.invalid = 0 ∧ r.opcode.bits?.map (·.layout) = some "X[15:16] 1011111100000000[15:0]" ∧
        ¬r.WellRanged := by
  constructor
  case left =>
    obtain ⟨r, ds, hread, hfacts⟩ : ∃ r ds, read Builtin.X86.dictionaries
        ⟨"mov", "W[0:7]:r32, r32", "NONE", "90", ""⟩ "" = (.ok r, ds) ∧
          (r.invalid, r.operands.map (·.bitRange)) = (0, [some (0, 7), none]) :=
      exists_of_map_toOption (by decide +kernel)
    obtain ⟨hvalid, hbits⟩ := Prod.mk.inj hfacts
    refine ⟨r, ds, hread, hvalid, hbits, fun hranges => ?_⟩
    obtain ⟨op, hop, hrange⟩ : ∃ op ∈ r.operands, op.bitRange = some (0, 7) :=
      List.mem_map.mp (hbits ▸ List.mem_cons_self)
    exact absurd (hranges.operands op hop 0 7 hrange) (by decide)
  case right =>
    obtain ⟨r, ds, hread, hfacts⟩ : ∃ r ds, read { dialect := .arm }
        ⟨"nop", "", "T16", "X:0|1011111100000000", ""⟩ "" = (.ok r, ds) ∧
          (r.invalid, r.opcode.bits?.map fun t => (t.layout, t.fields.map (·.width))) =
            (0, some ("X[15:16] 1011111100000000[15:0]", [0, 16])) :=
      exists_of_map_toOption (by decide +kernel)
    obtain ⟨hvalid, htemplate⟩ := Prod.mk.inj hfacts
    obtain ⟨t, ht, hsame⟩ := Option.map_eq_some_iff.mp htemplate
    obtain ⟨hlayout, hwidths⟩ := Prod.mk.inj hsame
    refine ⟨r, ds, hread, hvalid, by rw [ht, Option.map_some, hlayout], fun hranges => ?_⟩
    obtain ⟨f, hf, hzero⟩ : ∃ f ∈ t.fields, f.width = 0 :=
      List.mem_map.mp (hwidths ▸ List.mem_cons_self)
    have hopcode : r.opcode = .bits t := by
      cases hopcode : r.opcode with
      | bytes => simp [hopcode, Opcode.bits?] at ht
      | bits t' => simpa [hopcode, Opcode.bits?] using ht
    exact absurd ((hranges.opcode t hopcode).widths f hf) (by omega)

end Record

end InstrTable
