import InstrTable.Proofs.BitTemplate.Segment
import Mathlib.Data.List.Induction
import Mathlib.Tactic.Ring

/-!
The fields of a bit template tile its word. Every bit of the word is in one field;
the mask has the bits of the fixed fields, and the value has the digits that are
written in them. Value and mask are put together from the fields in the same way,
so one lemma about their bits serves for both.
-/

namespace InstrTable

namespace BitField

/-- Whether a field holds bit `p` of the word. -/
def Covers (f : BitField) (p : Nat) : Prop := f.lsb ≤ p ∧ p < f.lsb + f.width

/-- Each field begins where the fields behind it end. -/
def Tiled : List BitField → Prop
  | [] => True
  | f :: fs => f.lsb = totalWidth fs ∧ Tiled fs

/-- Whether a field of fixed bits is as wide as they are many. -/
def Filled (f : BitField) : Prop := ∀ bits, f.content = .literal bits → f.width = bits.length

theorem totalWidth_eq_sum (fields : List BitField) :
    totalWidth fields = (fields.map (·.width)).sum := by
  induction fields with
  | nil => rfl
  | cons f fs ih => simp [totalWidth, ih]

theorem tiled_place (parts : List (FieldContent × Nat)) : Tiled (place parts) := by
  induction parts with
  | nil => trivial
  | cons part parts ih => exact ⟨rfl, ih⟩

theorem map_place (parts : List (FieldContent × Nat)) :
    (place parts).map (fun f => (f.content, f.width)) = parts := by
  induction parts with
  | nil => rfl
  | cons part parts ih => simp [place, ih]

theorem Tiled.place_map {fields : List BitField} (h : Tiled fields) :
    place (fields.map fun f => (f.content, f.width)) = fields := by
  induction fields with
  | nil => rfl
  | cons f fs ih => rw [List.map_cons, place, ih h.2, ← h.1]

theorem Tiled.lsb_getElem {fields : List BitField} (h : Tiled fields) (i : Nat)
    (hi : i < fields.length) : fields[i].lsb = totalWidth (fields.drop (i + 1)) := by
  induction fields generalizing i with
  | nil => simp at hi
  | cons f fs ih =>
      cases i with
      | zero => simpa using h.1
      | succ i => simpa using ih h.2 i (by simpa using hi)

theorem Tiled.lt_of_covers {fields : List BitField} (h : Tiled fields) {f : BitField}
    (hf : f ∈ fields) {p : Nat} (hp : f.Covers p) : p < totalWidth fields := by
  induction fields with
  | nil => simp at hf
  | cons g gs ih =>
      have hwidth : totalWidth (g :: gs) = g.width + totalWidth gs := rfl
      rcases List.mem_cons.mp hf with rfl | hf
      · have hlsb := h.1
        unfold Covers at hp
        omega
      · have hlt := ih h.2 hf
        omega

/-- No bit of the word is in two fields, and none is left out. -/
theorem Tiled.existsUnique_covers {fields : List BitField} (h : Tiled fields) {p : Nat}
    (hp : p < totalWidth fields) : ∃! i : Fin fields.length, fields[i].Covers p := by
  induction fields with
  | nil => simp [totalWidth] at hp
  | cons f fs ih =>
      have hlsb := h.1
      by_cases hlow : p < totalWidth fs
      · -- the first field begins above `p`
        obtain ⟨i, hi, hunique⟩ := ih h.2 hlow
        refine ⟨i.succ, by simpa using hi, ?_⟩
        intro j hj
        cases j using Fin.cases with
        | zero =>
            have hle : f.lsb ≤ p := by simpa using hj.1
            omega
        | succ j => rw [hunique j (by simpa using hj)]
      · have hwidth : totalWidth (f :: fs) = f.width + totalWidth fs := rfl
        refine ⟨⟨0, by simp⟩, ?_, ?_⟩
        · show f.lsb ≤ p ∧ p < f.lsb + f.width
          omega
        · intro j hj
          cases j using Fin.cases with
          | zero => rfl
          | succ j =>
              have hj' : fs[j].Covers p := by simpa using hj
              exact absurd (h.2.lt_of_covers (List.getElem_mem _) hj') hlow

/-! ### The bits of a word put together from its fields -/

/-- The word in which each field holds its digits. -/
def assemble (digits : BitField → Nat) (fields : List BitField) : Nat :=
  fields.foldl (fun n f => (n <<< f.width) + digits f) 0

theorem foldl_assemble (digits : BitField → Nat) (fields : List BitField) (n : Nat) :
    fields.foldl (fun n f => (n <<< f.width) + digits f) n =
      2 ^ totalWidth fields * n + assemble digits fields := by
  induction fields generalizing n with
  | nil => simp [totalWidth, assemble]
  | cons f fs ih =>
      have hcons : assemble digits (f :: fs) =
          2 ^ totalWidth fs * digits f + assemble digits fs := by
        rw [← ih]
        simp [assemble]
      rw [List.foldl_cons, ih, hcons, totalWidth, Nat.shiftLeft_eq, Nat.pow_add]
      ring

theorem assemble_cons (digits : BitField → Nat) (f : BitField) (fs : List BitField) :
    assemble digits (f :: fs) = 2 ^ totalWidth fs * digits f + assemble digits fs := by
  have h := foldl_assemble digits fs (digits f)
  simpa [assemble] using h

theorem assemble_lt {digits : BitField → Nat} {fields : List BitField}
    (hdigits : ∀ f ∈ fields, digits f < 2 ^ f.width) :
    assemble digits fields < 2 ^ totalWidth fields := by
  induction fields with
  | nil => simp [assemble, totalWidth]
  | cons f fs ih =>
      have hf := hdigits f List.mem_cons_self
      have hfs := ih fun g hg => hdigits g (List.mem_cons_of_mem _ hg)
      rw [assemble_cons, totalWidth, Nat.add_comm f.width, Nat.pow_add]
      calc
        2 ^ totalWidth fs * digits f + assemble digits fs <
            2 ^ totalWidth fs * digits f + 2 ^ totalWidth fs := Nat.add_lt_add_left hfs _
        _ = 2 ^ totalWidth fs * (digits f + 1) := by ring
        _ ≤ 2 ^ totalWidth fs * 2 ^ f.width := Nat.mul_le_mul_left _ hf

/-- A bit of the word is a bit of the field that holds it. -/
theorem testBit_assemble {digits : BitField → Nat} {fields : List BitField} (h : Tiled fields)
    (hdigits : ∀ f ∈ fields, digits f < 2 ^ f.width) (p : Nat) :
    (assemble digits fields).testBit p = true ↔
      ∃ f ∈ fields, f.Covers p ∧ (digits f).testBit (p - f.lsb) = true := by
  induction fields with
  | nil => simp [assemble]
  | cons f fs ih =>
      have hf := hdigits f List.mem_cons_self
      have hfs : ∀ g ∈ fs, digits g < 2 ^ g.width := fun g hg =>
        hdigits g (List.mem_cons_of_mem _ hg)
      rw [assemble_cons, Nat.testBit_two_pow_mul_add _ (assemble_lt hfs)]
      by_cases hp : p < totalWidth fs
      · have hnot : ¬f.Covers p := by
          intro hc
          have := hc.1
          have := h.1
          omega
        simp [hp, ih h.2 hfs, hnot]
      · rw [if_neg hp, ← h.1]
        constructor
        · intro hbit
          refine ⟨f, List.mem_cons_self, ⟨by have := h.1; omega, ?_⟩, hbit⟩
          -- a bit above the width of the field would be above its digits
          by_contra hhigh
          have hle : 2 ^ f.width ≤ 2 ^ (p - f.lsb) :=
            Nat.pow_le_pow_right (by omega) (by have := h.1; omega)
          rw [Nat.testBit_lt_two_pow (Nat.lt_of_lt_of_le hf hle)] at hbit
          contradiction
        · rintro ⟨g, hg, hc, hbit⟩
          rcases List.mem_cons.mp hg with rfl | hg
          · exact hbit
          · exact absurd (h.2.lt_of_covers hg hc) hp

end BitField

/-! ### The digits of a fixed field -/

theorem ofBits_append_singleton (bits : List Bool) (b : Bool) :
    ofBits (bits ++ [b]) = 2 * ofBits bits + b.toNat := by
  simp [ofBits]

theorem ofBits_lt (bits : List Bool) : ofBits bits < 2 ^ bits.length := by
  induction bits using List.reverseRecOn with
  | nil => simp [ofBits]
  | append_singleton bits b ih =>
      have hb : b.toNat < 2 := Bool.toNat_lt b
      rw [ofBits_append_singleton, List.length_append, List.length_singleton, Nat.pow_succ]
      omega

/-- The first digit is the highest bit. -/
theorem testBit_ofBits (bits : List Bool) {i : Nat} (hi : i < bits.length) :
    (ofBits bits).testBit i = true ↔ bits[bits.length - 1 - i]? = some true := by
  induction bits using List.reverseRecOn generalizing i with
  | nil => simp at hi
  | append_singleton bits b ih =>
      rw [ofBits_append_singleton]
      cases i with
      | zero => cases b <;> simp [Nat.add_mod]
      | succ i =>
          have hi' : i < bits.length := by simpa using hi
          have hdiv : (2 * ofBits bits + b.toNat) / 2 = ofBits bits := by
            have hb : b.toNat < 2 := Bool.toNat_lt b
            omega
          have hplace : (bits ++ [b]).length - 1 - (i + 1) = bits.length - 1 - i := by
            simp only [List.length_append, List.length_singleton]
            omega
          rw [Nat.testBit_succ, hdiv, ih hi', hplace, List.getElem?_append_left (by omega)]

namespace BitField

variable {fields : List BitField}

/-- Whether a field writes a one to bit `p`. Its first digit is its highest bit. -/
def FixesOne (f : BitField) (p : Nat) : Prop :=
  f.Covers p ∧ f.content.bits[f.lsb + f.width - 1 - p]? = some true

theorem maskDigits_lt (f : BitField) :
    (if f.content.isLiteral then Bits.mask 0 f.width else 0) < 2 ^ f.width := by
  have hpos := Nat.two_pow_pos f.width
  split
  · simp only [Bits.mask, Nat.shiftLeft_zero, Nat.one_shiftLeft]
    omega
  · exact hpos

theorem valueDigits_lt {f : BitField} (h : f.Filled) : ofBits f.content.bits < 2 ^ f.width := by
  cases hc : f.content with
  | literal bits =>
      rw [h bits hc]
      exact ofBits_lt bits
  | named => exact Nat.two_pow_pos f.width

/-- The mask has the bits of the fixed fields. -/
theorem Tiled.testBit_maskOf (h : Tiled fields) (p : Nat) :
    (maskOf fields).testBit p = true ↔ ∃ f ∈ fields, f.Covers p ∧ f.content.isLiteral = true := by
  change (assemble _ fields).testBit p = true ↔ _
  rw [testBit_assemble h fun f _ => maskDigits_lt f]
  refine exists_congr fun f => and_congr_right fun _ => and_congr_right fun hc => ?_
  have hlow : p - f.lsb < f.width := by
    unfold Covers at hc
    omega
  cases f.content.isLiteral <;> simp [Bits.mask, Nat.one_shiftLeft, hlow]

/-- The digits of a field, as bits of a number, are those in its places. -/
theorem testBit_digits {f : BitField} (hfilled : f.Filled) {p : Nat} (hc : f.Covers p) :
    (ofBits f.content.bits).testBit (p - f.lsb) = true ↔
      f.content.bits[f.lsb + f.width - 1 - p]? = some true := by
  cases hcontent : f.content with
  | literal bits =>
      have hwidth := hfilled bits hcontent
      unfold Covers at hc
      have hplace : f.lsb + f.width - 1 - p = bits.length - 1 - (p - f.lsb) := by omega
      simp only [FieldContent.bits]
      rw [testBit_ofBits bits (by omega), hplace]
  | named => simp [FieldContent.bits, ofBits]

/-- The value has the ones of the fixed fields. -/
theorem Tiled.testBit_valueOf (h : Tiled fields) (hfilled : ∀ f ∈ fields, f.Filled) (p : Nat) :
    (valueOf fields).testBit p = true ↔ ∃ f ∈ fields, f.FixesOne p := by
  change (assemble _ fields).testBit p = true ↔ _
  rw [testBit_assemble h fun f hf => valueDigits_lt (hfilled f hf)]
  exact exists_congr fun f => and_congr_right fun hf => and_congr_right fun hc =>
    testBit_digits (hfilled f hf) hc

theorem maskOf_lt (fields : List BitField) : maskOf fields < 2 ^ totalWidth fields :=
  assemble_lt fun f _ => maskDigits_lt f

/-- A value has no bit outside of its mask. -/
theorem Tiled.valueOf_and_maskOf (h : Tiled fields) (hfilled : ∀ f ∈ fields, f.Filled) :
    valueOf fields &&& maskOf fields = valueOf fields := by
  apply Nat.eq_of_testBit_eq
  intro p
  rw [Nat.testBit_and, Bool.and_eq_left_iff_imp]
  intro hvalue
  obtain ⟨f, hf, hc, hone⟩ := (h.testBit_valueOf hfilled p).mp hvalue
  refine (h.testBit_maskOf p).mpr ⟨f, hf, hc, ?_⟩
  cases hcontent : f.content with
  | literal bits => rfl
  | named => simp [hcontent, FieldContent.bits] at hone

end BitField

namespace BitTemplate

theorem Spells.filled {segment : List Char} {f : BitField}
    (h : Spells segment f.content f.width) : f.Filled := by
  intro bits hbits
  rw [hbits] at h
  generalize hwidth : f.width = width at h
  cases h with
  | run => simp

theorem exists_spells {segments : List (List Char)} {fields : List BitField}
    (h : List.Forall₂ (fun segment f => Spells segment f.content f.width) segments fields) :
    ∀ f ∈ fields, ∃ segment ∈ segments, Spells segment f.content f.width := by
  induction h with
  | nil => simp
  | cons hf _ ih =>
      intro f hmem
      rcases List.mem_cons.mp hmem with rfl | hmem
      · exact ⟨_, List.mem_cons_self, hf⟩
      · obtain ⟨segment, hsegment, hspells⟩ := ih f hmem
        exact ⟨segment, List.mem_cons_of_mem _ hsegment, hspells⟩

theorem filled_of_spells {segments : List (List Char)} {fields : List BitField}
    (h : List.Forall₂ (fun segment f => Spells segment f.content f.width) segments fields) :
    ∀ f ∈ fields, f.Filled := by
  intro f hf
  obtain ⟨_, _, hspells⟩ := exists_spells h f hf
  exact hspells.filled

/-- The segments of a text that are fields spell the fields of its template. -/
theorem spells_fields (text encoding : String) :
    List.Forall₂ (fun segment f => Spells segment f.content f.width)
      ((segments text.toList).filter isField) (read text encoding).1.fields := by
  have hparts := spells_readings text (segments text.toList)
  have hplace := BitField.map_place
    ((segments text.toList).filterMap fun segment => (readSegment text segment).1)
  rw [← hplace, List.forall₂_map_right_iff] at hparts
  simpa [read, List.filterMap_map, Function.comp_def] using hparts

/-- The fields of a template are those of its segments, from left to right, and they
tile the word: each begins where the fields behind it end, and every bit below the
width is in exactly one. A bit of the mask is set where a field is fixed, and a bit
of the value where the digit of that field is a one. -/
theorem read_tiles_word (text encoding : String) :
    let t := (read text encoding).1
    List.Forall₂ (fun segment f => Spells segment.toList f.content f.width)
        ((bitSegments text).filter fun segment => isField segment.toList) t.fields ∧
      t.width = (t.fields.map (·.width)).sum ∧
      (∀ i (hi : i < t.fields.length),
        t.fields[i].lsb = ((t.fields.drop (i + 1)).map (·.width)).sum) ∧
      (∀ p, p < t.width ↔ ∃ f ∈ t.fields, f.Covers p) ∧
      (∀ p < t.width, ∃! i : Fin t.fields.length, t.fields[i].Covers p) ∧
      (∀ p, t.mask.testBit p = true ↔ ∃ f ∈ t.fields, f.Covers p ∧ f.content.isLiteral = true) ∧
      (∀ p, t.value.testBit p = true ↔ ∃ f ∈ t.fields, f.FixesOne p) ∧
      t.value &&& t.mask = t.value ∧ t.mask < 2 ^ t.width := by
  intro t
  have hspells := spells_fields text encoding
  have htiled : BitField.Tiled t.fields := BitField.tiled_place _
  have hfilled : ∀ f ∈ t.fields, f.Filled := filled_of_spells hspells
  refine ⟨?_, BitField.totalWidth_eq_sum _, ?_, ?_, ?_, htiled.testBit_maskOf,
    htiled.testBit_valueOf hfilled, htiled.valueOf_and_maskOf hfilled, BitField.maskOf_lt _⟩
  · simpa [bitSegments, List.filter_map, Function.comp_def] using hspells
  · intro i hi
    rw [htiled.lsb_getElem i hi, BitField.totalWidth_eq_sum]
  · intro p
    constructor
    · intro hp
      obtain ⟨i, hi, _⟩ := htiled.existsUnique_covers hp
      exact ⟨t.fields[i], List.getElem_mem _, hi⟩
    · rintro ⟨f, hf, hc⟩
      exact htiled.lt_of_covers hf hc
  · intro p hp
    exact htiled.existsUnique_covers hp

end BitTemplate

end InstrTable
