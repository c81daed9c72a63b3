import InstrTable.Proofs.BitTemplate.Tiling
import InstrTable.Proofs.Bits.Field

/-!
The word of a bit template as it is written, one field after the other. Value and mask are put
together by shifts and sums. Since the fields tile the word, the same comes of writing each fixed
field into its place in an empty word.
-/

namespace InstrTable

namespace BitField

/-- Writes the digits of a fixed field into a value and its places into a mask. -/
def write (word : Int × Nat) (f : BitField) : Except BitsError (Int × Nat) :=
  if f.content.isLiteral then do
    let value ← setField word.1 f.lsb f.width (ofBits f.content.bits)
    let mask ← fieldMask f.lsb f.width
    return (value, word.2 ||| mask)
  else return word

/-- Whether a field is written to bit `p`. -/
def Writes (f : BitField) (p : Nat) : Prop := f.content.isLiteral = true ∧ f.Covers p

/-- What writing fields into `word` leaves in `word'`. -/
structure Written (fields : List BitField) (word word' : Int × Nat) : Prop where
  value : ∀ p, word'.1.testBit p = true ↔
    (∃ f ∈ fields, f.FixesOne p) ∨ (∀ f ∈ fields, ¬f.Writes p) ∧ word.1.testBit p = true
  mask : ∀ p, word'.2.testBit p = true ↔ word.2.testBit p = true ∨ ∃ f ∈ fields, f.Writes p

theorem FixesOne.writes {f : BitField} {p : Nat} (h : f.FixesOne p) : f.Writes p := by
  refine ⟨?_, h.1⟩
  cases hcontent : f.content with
  | literal bits => rfl
  | named => simp [FixesOne, hcontent, FieldContent.bits] at h

theorem written_nil (word : Int × Nat) : Written [] word word :=
  ⟨fun p => by simp, fun p => by simp⟩

/-- What a field leaves that is written alone. -/
theorem written_singleton_iff {f : BitField} {word word' : Int × Nat} :
    Written [f] word word' ↔
      (∀ p, word'.1.testBit p = true ↔ f.FixesOne p ∨ ¬f.Writes p ∧ word.1.testBit p = true) ∧
      ∀ p, word'.2.testBit p = true ↔ word.2.testBit p = true ∨ f.Writes p := by
  constructor
  · rintro ⟨hvalue, hmask⟩
    exact ⟨by simpa using hvalue, by simpa using hmask⟩
  · rintro ⟨hvalue, hmask⟩
    exact ⟨by simpa using hvalue, by simpa using hmask⟩

theorem exists_write {f : BitField} (hfilled : f.Filled) (word : Int × Nat) :
    ∃ word', f.write word = .ok word' ∧ Written [f] word word' := by
  simp only [written_singleton_iff]
  by_cases hliteral : f.content.isLiteral = true
  · have hwrites (p : Nat) : f.Writes p ↔ f.lsb ≤ p ∧ p < f.lsb + f.width :=
      and_iff_right hliteral
    refine ⟨(Bits.set word.1 f.lsb f.width (ofBits f.content.bits),
      word.2 ||| Bits.mask f.lsb f.width), ?_, fun p => ?_, fun p => ?_⟩
    · rw [write, if_pos hliteral, setField_natCast, fieldMask_natCast]
      rfl
    · rw [Bits.testBit_set]
      by_cases hp : f.Writes p
      · rw [if_pos ((hwrites p).mp hp), Bits.testBit_natCast, testBit_digits hfilled hp.2]
        simp [FixesOne, hp, hp.2]
      · have hone : ¬f.FixesOne p := fun h => hp h.writes
        rw [if_neg (mt (hwrites p).mpr hp)]
        simp [hp, hone]
    · rw [Nat.testBit_or, Bool.or_eq_true, Bits.testBit_mask, decide_eq_true_iff, hwrites]
  · have hwrites (p : Nat) : ¬f.Writes p := fun h => hliteral h.1
    have hone (p : Nat) : ¬f.FixesOne p := fun h => hwrites p h.writes
    refine ⟨word, ?_, fun p => ?_, fun p => ?_⟩
    · rw [write, if_neg hliteral]
      rfl
    · simp [hwrites p, hone p]
    · simp [hwrites p]

/-- The fields behind a field are written below it, so they leave its digits alone. -/
theorem Written.cons {f : BitField} {fs : List BitField} {word word' word'' : Int × Nat}
    (htiled : Tiled (f :: fs)) (hf : Written [f] word word') (hfs : Written fs word' word'') :
    Written (f :: fs) word word'' := by
  obtain ⟨hvalue, hmask⟩ := written_singleton_iff.mp hf
  refine ⟨fun p => ?_, fun p => ?_⟩
  · have hbelow : f.Writes p → ∀ g ∈ fs, ¬g.Writes p := by
      intro hp g hg hgp
      have hlt := htiled.2.lt_of_covers hg hgp.2
      have hle := hp.2.1
      have hlsb := htiled.1
      omega
    rw [hfs.value, hvalue, List.exists_mem_cons_iff, List.forall_mem_cons]
    constructor
    · rintro (hone | ⟨hnone, hone | ⟨hp, hbit⟩⟩)
      · exact .inl (.inr hone)
      · exact .inl (.inl hone)
      · exact .inr ⟨⟨hp, hnone⟩, hbit⟩
    · rintro ((hone | hone) | ⟨⟨hp, hnone⟩, hbit⟩)
      · exact .inr ⟨hbelow hone.writes, .inl hone⟩
      · exact .inl hone
      · exact .inr ⟨hnone, .inr ⟨hp, hbit⟩⟩
  · rw [hfs.mask, hmask, List.exists_mem_cons_iff, or_assoc]

/-- Fields that tile a word can be written one after the other. -/
theorem exists_foldlM_write {fields : List BitField} (htiled : Tiled fields)
    (hfilled : ∀ f ∈ fields, f.Filled) (word : Int × Nat) :
    ∃ word', fields.foldlM write word = .ok word' ∧
      Written fields word word' := by
  induction fields generalizing word with
  | nil => exact ⟨word, rfl, written_nil word⟩
  | cons f fs ih =>
      obtain ⟨word', hwrite, hf⟩ := exists_write (hfilled f List.mem_cons_self) word
      obtain ⟨word'', hrun, hfs⟩ :=
        ih htiled.2 (fun g hg => hfilled g (List.mem_cons_of_mem _ hg)) word'
      refine ⟨word'', ?_, hf.cons htiled hfs⟩
      rw [List.foldlM_cons, hwrite]
      exact hrun

end BitField

/-- Value and mask of a template are what writing its fixed fields, from left to right, leaves in
an empty word. -/
theorem BitTemplate.foldlM_write_read (text encoding : String) :
    let t := (read text encoding).1
    t.fields.foldlM BitField.write (0, 0) = .ok ((t.value : Int), t.mask) := by
  intro t
  have htiled : BitField.Tiled t.fields := BitField.tiled_place _
  have hfilled : ∀ f ∈ t.fields, f.Filled := filled_of_spells (spells_fields text encoding)
  obtain ⟨⟨value, mask⟩, hrun, hwritten⟩ := BitField.exists_foldlM_write htiled hfilled (0, 0)
  have hvalue : value = t.value := by
    refine Bits.eq_of_testBit_eq fun p => Bool.eq_iff_iff.mpr ?_
    have hzero : ¬(0 : Int).testBit p = true := by simp [Int.testBit]
    rw [Bits.testBit_natCast, BitTemplate.value, htiled.testBit_valueOf hfilled]
    simpa [hzero] using hwritten.value p
  have hmask : mask = t.mask := by
    refine Nat.eq_of_testBit_eq fun p => Bool.eq_iff_iff.mpr ?_
    rw [BitTemplate.mask, htiled.testBit_maskOf]
    simpa [BitField.Writes, and_comm] using hwritten.mask p
  rw [hrun, hvalue, hmask]

end InstrTable
