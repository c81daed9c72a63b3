import InstrTable.Proofs.BitTemplate.Suffix
import InstrTable.Proofs.BitTemplate.Tiling

/-!
Templates written out. A field is written with its slice or its width behind the name, and
with the quotes around both, and what is written is read as that field.
-/

namespace InstrTable

/-- What is written behind the name of a field: its slice, or else its width. -/
def suffixText (slice : Option (Nat × Nat)) (width : Nat) : String :=
  match slice with
  | some (hi, lo) => s!"[{hi}:{lo}]"
  | none => s!":{width}"

/-- The segment that says a field. -/
def BitField.spelling (f : BitField) : String :=
  match f.content with
  | .literal bits => bitText bits
  | .named name slice lowQuote highQuote =>
    (if lowQuote then "'" else "") ++ name ++ suffixText slice f.width ++
      (if highQuote then "'" else "")

/-- The fields of a template, each in a segment of its own. -/
def BitTemplate.spelling (t : BitTemplate) : String :=
  "|".intercalate (t.fields.map BitField.spelling)

/-! ### Suffixes -/

theorem toList_suffixText_some (hi lo width : Nat) :
    (suffixText (some (hi, lo)) width).toList =
      '[' :: (Text.digits hi ++ ':' :: Text.digits lo) ++ [']'] := by
  simp [suffixText, Text.digits, toString]

theorem toList_suffixText_none (width : Nat) :
    (suffixText none width).toList = ':' :: Text.digits width := by
  simp [suffixText, Text.digits, toString]

section suffix

variable (slice : Option (Nat × Nat)) (width : Nat)

theorem mem_suffixText {c : Char} (h : c ∈ (suffixText slice width).toList) :
    c.isDigit = true ∨ c ∈ [':', '[', ']'] := by
  cases slice with
  | none =>
      rw [toList_suffixText_none] at h
      rcases List.mem_cons.mp h with rfl | hdigit
      · exact .inr List.mem_cons_self
      · exact .inl (Text.isDigit_of_mem_digits hdigit)
  | some bounds =>
      obtain ⟨hi, lo⟩ := bounds
      simp only [toList_suffixText_some, List.mem_append, List.mem_cons, List.not_mem_nil,
        or_false] at h
      rcases h with (rfl | hdigit | rfl | hdigit) | rfl
      · decide
      · exact .inl (Text.isDigit_of_mem_digits hdigit)
      · decide
      · exact .inl (Text.isDigit_of_mem_digits hdigit)
      · decide

theorem not_mem_suffixText {c : Char} (hdigit : c.isDigit = false) (hother : c ∉ [':', '[', ']']) :
    c ∉ (suffixText slice width).toList := by
  intro h
  rcases mem_suffixText slice width h with hc | hc
  · simp [hdigit] at hc
  · exact hother hc

theorem isBlank_suffixText : ∀ c ∈ (suffixText slice width).toList, Text.isBlank c = false := by
  intro c h
  rcases mem_suffixText slice width h with hdigit | hother
  · exact Text.isBlank_of_isDigit hdigit
  · have hsigns : Text.isWord [':', '[', ']'] = true := by decide
    exact (Text.isWord_iff.mp hsigns).2 c hother

theorem colon_mem_suffixText : ':' ∈ (suffixText slice width).toList := by
  cases slice with
  | none => simp [toList_suffixText_none]
  | some bounds =>
      obtain ⟨hi, lo⟩ := bounds
      simp [toList_suffixText_some]

end suffix

namespace BitTemplate

variable {name : List Char} {slice : Option (Nat × Nat)} {width : Nat}

/-- The suffix that is written behind a name. -/
def suffixOf : Option (Nat × Nat) → Nat → Suffix
  | some (hi, lo), _ => .slice hi lo
  | none, width => .width width

theorem blankedNat?_digits (n : Nat) : blankedNat? (Text.digits n) = some n := by
  rw [blankedNat?, Text.trim_eq_self (Text.isBlank_of_mem_digits n), Text.nat?_digits]

/-- A text ends with no character that is not in its last part. -/
theorem getLast?_append_ne {front back : List Char} (hne : back ≠ []) {c : Char} (h : c ∉ back) :
    (front ++ back).getLast? ≠ some c := by
  rw [List.getLast?_append_of_ne_nil front hne]
  exact fun hlast => h (List.mem_of_getLast? hlast)

/-- What is written behind a name is taken from it again. -/
theorem takeSuffix?_suffixText (hname : ∀ c ∈ name, Text.isBlank c = false) :
    takeSuffix? (name ++ (suffixText slice width).toList) = some (name, suffixOf slice width) := by
  have hblank : ∀ c ∈ name ++ (suffixText slice width).toList, Text.isBlank c = false :=
    List.forall_mem_append.mpr ⟨hname, isBlank_suffixText slice width⟩
  have hline : Text.dropFinalNewline (name ++ (suffixText slice width).toList) =
      name ++ (suffixText slice width).toList := Text.dropFinalNewline_eq_self hblank
  cases slice with
  | none =>
      rw [toList_suffixText_none] at hline ⊢
      refine takeSuffix?_width_iff.mpr ⟨name, _, hline, Text.trim_eq_self hname, ?_⟩
      rw [Text.trimStart_eq_self (Text.isBlank_of_mem_digits width), Text.nat?_digits]
  | some bounds =>
      obtain ⟨hi, lo⟩ := bounds
      rw [toList_suffixText_some, ← List.append_assoc] at hline ⊢
      exact takeSuffix?_slice_iff.mpr
        ⟨name, _, _, hline, Text.trim_eq_self hname, blankedNat?_digits hi, blankedNat?_digits lo⟩

/-! ### Segments -/

/-- Whether a character may stand in a segment of a text without blanks. -/
def IsPlain (c : Char) : Prop := Text.isBlank c = false ∧ c ≠ '|'

/-- Whether a segment without blanks may give a field this name. -/
structure IsName (name : List Char) : Prop where
  ne_nil : name ≠ []
  head?_ne : name.head? ≠ some '\''
  isPlain : ∀ c ∈ name, IsPlain c

theorem IsName.no_blank (h : IsName name) : ∀ c ∈ name, Text.isBlank c = false :=
  fun c hc => (h.isPlain c hc).1

/-- Whether a field may stand in a text without blanks. -/
inductive Writable : FieldContent → Nat → Prop where
  | literal {bits : List Bool} (hne : bits ≠ []) : Writable (.literal bits) bits.length
  | named {name : String} {slice : Option (Nat × Nat)} {width : Nat} {lowQuote highQuote : Bool}
      (hname : IsName name.toList)
      (hslice : ∀ hi lo, slice = some (hi, lo) → lo ≤ hi ∧ width = hi - lo + 1) :
      Writable (.named name slice lowQuote highQuote) width

/-- A text with quotes on some of its sides. -/
def quoted (lowQuote highQuote : Bool) (key : List Char) : List Char :=
  (if lowQuote then ['\''] else []) ++ key ++ (if highQuote then ['\''] else [])

section quoted

variable {key : List Char} (hhead : key.head? ≠ some '\'') (hlast : key.getLast? ≠ some '\'')
  (hne : key ≠ []) (lowQuote highQuote : Bool)
include hne

include hhead in
theorem head?_quoted :
    decide ((quoted lowQuote highQuote key).head? = some '\'') = lowQuote := by
  obtain ⟨c, cs, rfl⟩ := List.exists_cons_of_ne_nil hne
  cases lowQuote with
  | false => simpa [quoted] using hhead
  | true => simp [quoted]

include hlast in
theorem getLast?_quoted :
    (decide ((quoted lowQuote highQuote key).getLast? = some '\'') &&
      decide (1 < (quoted lowQuote highQuote key).length)) = highQuote := by
  cases highQuote with
  | false =>
      have hend : (quoted lowQuote false key).getLast? = key.getLast? := by
        simp [quoted, List.getLast?_append_of_ne_nil _ hne]
      simp [hend, hlast]
  | true =>
      have hend : (quoted lowQuote true key).getLast? = some '\'' := by simp [quoted]
      have hlong : 1 < (quoted lowQuote true key).length := by
        have hpos := List.length_pos_of_ne_nil hne
        simp only [quoted, if_true, List.length_append, List.length_singleton]
        omega
      simp [hend, hlong]

include hhead hlast in
theorem unquoted_quoted : unquoted (quoted lowQuote highQuote key) = key := by
  have hfront (rest : List Char) : (key ++ rest).dropWhile (· = '\'') = key ++ rest := by
    obtain ⟨c, cs, rfl⟩ := List.exists_cons_of_ne_nil hne
    simpa using hhead
  have hkey : key.dropWhile (· = '\'') = key := by simpa using hfront []
  have hback : key.reverse.dropWhile (· = '\'') = key.reverse := by
    rw [← List.head?_reverse] at hlast
    obtain ⟨c, cs, hcons⟩ := List.exists_cons_of_ne_nil (List.reverse_ne_nil_iff.mpr hne)
    simpa [hcons] using hlast
  cases lowQuote <;> cases highQuote <;> simp [unquoted, quoted, hfront, hkey, hback]

end quoted

/-- A named field is read as it is written. -/
theorem readNamed_quoted (opcode : String) (hname : IsName name)
    (hslice : ∀ hi lo, slice = some (hi, lo) → lo ≤ hi ∧ width = hi - lo + 1)
    (lowQuote highQuote : Bool) :
    readNamed opcode (quoted lowQuote highQuote (name ++ (suffixText slice width).toList)) =
      (some (.named (String.ofList name) slice lowQuote highQuote, width), []) := by
  have hne : name ++ (suffixText slice width).toList ≠ [] := by simp [hname.ne_nil]
  have hhead : (name ++ (suffixText slice width).toList).head? ≠ some '\'' := by
    obtain ⟨c, cs, rfl⟩ := List.exists_cons_of_ne_nil hname.ne_nil
    simpa using hname.head?_ne
  have hlast : (name ++ (suffixText slice width).toList).getLast? ≠ some '\'' :=
    getLast?_append_ne (List.ne_nil_of_mem (colon_mem_suffixText slice width))
      (not_mem_suffixText slice width (by decide) (by decide))
  -- neither the name begins with a quote nor the suffix ends with one, so those that are
  -- taken away are the ones that were written
  unfold readNamed
  simp only [unquoted_quoted hhead hlast hne, head?_quoted hhead hne, getLast?_quoted hlast hne,
    takeSuffix?_suffixText hname.no_blank]
  cases slice with
  | none => simp [suffixOf, hname.ne_nil]
  | some bounds =>
      obtain ⟨hi, lo⟩ := bounds
      obtain ⟨hle, rfl⟩ := hslice hi lo rfl
      simp [suffixOf, hname.ne_nil, hle]

/-! ### Fixed bits -/

theorem isBit_bitText (bits : List Bool) : ∀ c ∈ (bitText bits).toList, isBit c = true := by
  intro c hc
  rw [bitText, String.toList_ofList] at hc
  obtain ⟨b, -, rfl⟩ := List.mem_map.mp hc
  cases b <;> rfl

/-- A run of bits is one part. -/
theorem mixedParts_bits {cs : List Char} (hne : cs ≠ []) (h : ∀ c ∈ cs, isBit c = true) :
    mixedParts cs = [cs] := by
  induction cs with
  | nil => exact absurd rfl hne
  | cons c cs ih =>
      obtain ⟨hc, hcs⟩ := List.forall_mem_cons.mp h
      cases cs with
      | nil => simp [mixedParts, hc]
      | cons d ds =>
          have hd : isBit d = true := hcs d List.mem_cons_self
          have hparts : mixedParts (d :: ds) = [d :: ds] := ih (by simp) hcs
          unfold mixedParts
          simp only [hparts, hc, hd, if_true]

theorem expandSegment_bits {cs : List Char} (hne : cs ≠ []) (h : ∀ c ∈ cs, isBit c = true) :
    expandSegment cs = [cs] := by
  unfold expandSegment
  split
  · exact mixedParts_bits hne h
  · rfl

theorem readSegment_bitText (opcode : String) {bits : List Bool} (hne : bits ≠ []) :
    readSegment opcode (bitText bits).toList = (some (.literal bits, bits.length), []) := by
  have hrun : (!(bitText bits).toList.isEmpty && (bitText bits).toList.all isBit) = true := by
    have hall : (bitText bits).toList.all isBit = true :=
      List.all_eq_true.mpr (isBit_bitText bits)
    rw [hall]
    simpa [bitText] using hne
  have hbits : ((bitText bits).toList.map fun c => decide (c = '1')) = bits := by
    rw [bitText, String.toList_ofList, List.map_map]
    refine List.map_id'' (fun b => ?_) bits
    cases b <;> rfl
  rw [readSegment, if_pos hrun, hbits]
  simp [bitText]

/-! ### Fields -/

theorem toList_spelling_named (name : String) (slice : Option (Nat × Nat)) (width lsb : Nat)
    (lowQuote highQuote : Bool) :
    (BitField.spelling ⟨.named name slice lowQuote highQuote, width, lsb⟩).toList =
      quoted lowQuote highQuote (name.toList ++ (suffixText slice width).toList) := by
  cases lowQuote <;> cases highQuote <;> simp [BitField.spelling, quoted]

theorem mem_quoted {lowQuote highQuote : Bool} {key : List Char} {c : Char}
    (h : c ∈ quoted lowQuote highQuote key) : c = '\'' ∨ c ∈ key := by
  cases lowQuote <;> cases highQuote <;> simp [quoted] at h <;> tauto

/-- The colon of a suffix tells a named field from bits, and from what is short for several
fields. -/
theorem colon_mem_quoted (lowQuote highQuote : Bool) (name : List Char)
    (slice : Option (Nat × Nat)) (width : Nat) :
    ':' ∈ quoted lowQuote highQuote (name ++ (suffixText slice width).toList) := by
  have hcolon := colon_mem_suffixText slice width
  simp [quoted, hcolon]

theorem expandSegment_of_colon {cs : List Char} (h : ':' ∈ cs) : expandSegment cs = [cs] := by
  have hmixed : cs.all isMixed = false := List.all_eq_false.mpr ⟨':', h, by decide⟩
  simp [expandSegment, hmixed]

theorem readSegment_of_colon (opcode : String) {cs : List Char} (h : ':' ∈ cs) :
    readSegment opcode cs = readNamed opcode cs := by
  have hbits : cs.all isBit = false := List.all_eq_false.mpr ⟨':', h, by decide⟩
  simp [readSegment, hbits]

section spelling

variable {f : BitField} (h : Writable f.content f.width)
include h

theorem Writable.isPlain_spelling : ∀ c ∈ f.spelling.toList, IsPlain c := by
  obtain ⟨content, width, lsb⟩ := f
  intro c hc
  cases h with
  | literal hne =>
      have hbit := isBit_bitText _ c hc
      simp only [isBit, Bool.or_eq_true, decide_eq_true_eq] at hbit
      rcases hbit with rfl | rfl
      · exact ⟨by decide, by decide⟩
      · exact ⟨by decide, by decide⟩
  | @named name slice _ lowQuote highQuote hname hslice =>
      rw [toList_spelling_named] at hc
      rcases mem_quoted hc with rfl | hc
      · exact ⟨by decide, by decide⟩
      rcases List.mem_append.mp hc with hc | hc
      · exact hname.isPlain c hc
      · refine ⟨isBlank_suffixText slice width c hc, ?_⟩
        rintro rfl
        exact not_mem_suffixText slice width (by decide) (by decide) hc

theorem Writable.expandSegment_spelling :
    expandSegment (Text.trim f.spelling.toList) = [f.spelling.toList] := by
  rw [Text.trim_eq_self fun c hc => (h.isPlain_spelling c hc).1]
  obtain ⟨content, width, lsb⟩ := f
  cases h with
  | @literal bits hne =>
      have hdigits : (bitText bits).toList ≠ [] := by simpa [bitText] using hne
      exact expandSegment_bits hdigits (isBit_bitText bits)
  | @named name slice _ lowQuote highQuote hname hslice =>
      rw [toList_spelling_named]
      exact expandSegment_of_colon (colon_mem_quoted ..)

theorem Writable.readSegment_spelling (opcode : String) :
    readSegment opcode f.spelling.toList = (some (f.content, f.width), []) := by
  obtain ⟨content, width, lsb⟩ := f
  cases h with
  | literal hne => exact readSegment_bitText opcode hne
  | @named name slice _ lowQuote highQuote hname hslice =>
      rw [toList_spelling_named, readSegment_of_colon opcode (colon_mem_quoted ..),
        readNamed_quoted opcode hname hslice, String.ofList_toList]

end spelling

end BitTemplate

end InstrTable
