import InstrTable.Proofs.BitTemplate.Spelling

/-!
Templates read again. A text without blanks may leave widths to the reader and put several
fields in one segment, but its template is the one that is written out.
-/

namespace InstrTable

namespace BitTemplate

/-! ### What is read in a text without blanks -/

section names

variable {name : List Char}

theorem takeSuffix?_isPrefix {cs : List Char} {suffix : Suffix}
    (hblank : ∀ c ∈ cs, Text.isBlank c = false) (h : takeSuffix? cs = some (name, suffix)) :
    name <+: cs := by
  obtain ⟨front, rfl, htaken⟩ := exists_of_takeSuffix? h
  rw [Text.dropFinalNewline_eq_self hblank] at htaken
  have hfront : front <+: cs := by
    rcases htaken with hbracket | hwidth
    · obtain ⟨inner, rfl, -⟩ := exists_of_takeBracket? hbracket
      exact ⟨_, (List.append_assoc ..).symm⟩
    · obtain ⟨digits, _, rfl, -⟩ := exists_of_takeWidth? hwidth
      exact List.prefix_append front _
  rwa [Text.trim_eq_self fun c hc => hblank c (hfront.subset hc)]

/-- What a segment begins with, behind its quotes, may be a name. -/
theorem isName_of_isPrefix {segment : List Char} (hsegment : ∀ c ∈ segment, IsPlain c)
    (hname : name <+: unquoted segment) (hne : name ≠ []) : IsName name := by
  have hbare : name <+: segment.dropWhile (· = '\'') := hname.trans (unquoted_isPrefix segment)
  refine ⟨hne, ?_, fun c hc => ?_⟩
  · obtain ⟨c, cs, rfl⟩ := List.exists_cons_of_ne_nil hne
    obtain ⟨rest, hrest⟩ := hbare
    have hhead := List.head?_dropWhile_not (fun c => decide (c = '\'')) segment
    rw [← hrest] at hhead
    simpa using hhead
  · exact hsegment c ((List.dropWhile_suffix _).subset (hbare.subset hc))

/-- A segment without blanks spells a field that may be written. -/
theorem Spells.writable {segment : List Char} {content : FieldContent} {width : Nat}
    (h : Spells segment content width) (hsegment : ∀ c ∈ segment, IsPlain c) :
    Writable content width := by
  have hblank : ∀ c ∈ unquoted segment, Text.isBlank c = false := fun c hc =>
    (hsegment c (unquoted_subset segment hc)).1
  have hname {name : List Char} (hfront : name <+: unquoted segment) (hne : name ≠ []) :
      IsName (String.ofList name).toList := by
    rw [String.toList_ofList]
    exact isName_of_isPrefix hsegment hfront hne
  cases h with
  | run hrun =>
      have hne : segment ≠ [] := by
        rintro rfl
        simp [isRun] at hrun
      have hbits : segment.map (fun c => decide (c = '1')) ≠ [] := by simpa using hne
      have hwritable := Writable.literal hbits
      rwa [List.length_map] at hwritable
  | range first last _ hs hn =>
      refine .named (hname (takeSuffix?_isPrefix hblank hs) hn) fun hi lo hslice => ?_
      obtain ⟨rfl, rfl⟩ := Prod.mk.inj (Option.some.inj hslice)
      exact ⟨Nat.le_trans (Nat.min_le_left ..) (Nat.le_max_left ..), rfl⟩
  | index n _ hs hn =>
      refine .named (hname (takeSuffix?_isPrefix hblank hs) hn) fun hi lo hslice => ?_
      obtain ⟨rfl, rfl⟩ := Prod.mk.inj (Option.some.inj hslice)
      exact ⟨Nat.le_refl n, by omega⟩
  | width n _ hs hn => exact .named (hname (takeSuffix?_isPrefix hblank hs) hn) (by simp)
  | bare _ _ hn => exact .named (hname List.prefix_rfl hn) (by simp)

end names

theorem flatten_mixedParts (cs : List Char) : (mixedParts cs).flatten = cs := by
  induction cs with
  | nil => rfl
  | cons c cs ih =>
      unfold mixedParts
      grind

theorem flatten_expandSegment (cs : List Char) : (expandSegment cs).flatten = cs := by
  unfold expandSegment
  split
  · exact flatten_mixedParts cs
  · simp

theorem isPlain_of_mem_segments {cs segment : List Char}
    (htext : ∀ c ∈ cs, Text.isBlank c = false) (h : segment ∈ segments cs) :
    ∀ c ∈ segment, IsPlain c := by
  obtain ⟨piece, hpiece, hsegment⟩ := List.mem_flatMap.mp h
  have hplain : ∀ c ∈ piece, IsPlain c := fun c hc =>
    ⟨htext c (Text.mem_of_mem_pieces hpiece hc),
      fun hbar => Text.not_mem_of_mem_pieces hpiece (hbar ▸ hc)⟩
  rw [Text.trim_eq_self fun c hc => (hplain c hc).1] at hsegment
  intro c hc
  have hmem : c ∈ (expandSegment piece).flatten := List.mem_flatten.mpr ⟨segment, hsegment, hc⟩
  rw [flatten_expandSegment] at hmem
  exact hplain c hmem

theorem writable_of_mem_fields (text encoding : String)
    (htext : ∀ c ∈ text.toList, Text.isBlank c = false) :
    ∀ f ∈ (read text encoding).1.fields, Writable f.content f.width := by
  intro f hf
  obtain ⟨segment, hsegment, hspells⟩ := exists_spells (spells_fields text encoding) f hf
  exact hspells.writable (isPlain_of_mem_segments htext (List.mem_of_mem_filter hsegment))

/-! ### Templates -/

variable {t : BitTemplate}

/-- Every field has a segment of its own. -/
theorem segments_spelling (hne : t.fields ≠ [])
    (h : ∀ f ∈ t.fields, Writable f.content f.width) :
    segments t.spelling.toList = t.fields.map fun f => f.spelling.toList := by
  have hpieces : Text.pieces '|' t.spelling.toList = t.fields.map fun f => f.spelling.toList := by
    rw [spelling, toList_intercalate_bar, List.map_map]
    refine Text.pieces_joined (by simpa using hne) (List.forall_mem_map.mpr fun f hf hbar => ?_)
    exact ((h f hf).isPlain_spelling '|' hbar).2 rfl
  rw [segments, hpieces, List.flatMap_map, List.map_eq_flatMap]
  exact List.flatMap_congr fun f hf => (h f hf).expandSegment_spelling

theorem readSegment_nil (opcode : String) : readSegment opcode [] = (none, [.emptyField opcode]) :=
  rfl

/-- The segments are read as the fields, and no range of bits in them is the wrong way
around. A template without fields is written as one segment, which is empty. -/
theorem readings_spelling (h : ∀ f ∈ t.fields, Writable f.content f.width) (opcode : String) :
    let readings := (segments t.spelling.toList).map (readSegment opcode)
    readings.filterMap Prod.fst = t.fields.map (fun f => (f.content, f.width)) ∧
      ∀ field s, .reversedBitRange field s ∉ readings.flatMap Prod.snd := by
  by_cases hne : t.fields = []
  · have hnone : segments t.spelling.toList = [[]] := by
      rw [spelling, hne]
      rfl
    simp [hnone, hne, readSegment_nil]
  · have hread : (segments t.spelling.toList).map (readSegment opcode) =
        t.fields.map fun f => (some (f.content, f.width), []) := by
      rw [segments_spelling hne h, List.map_map]
      exact List.map_congr_left fun f hf => (h f hf).readSegment_spelling opcode
    rw [hread]
    simp [List.filterMap_map]

theorem fields_read_spelling (htiled : BitField.Tiled t.fields)
    (h : ∀ f ∈ t.fields, Writable f.content f.width) (encoding : String) :
    (read t.spelling encoding).1.fields = t.fields := by
  have hparts := (readings_spelling h t.spelling).1
  simp only [read, hparts]
  exact htiled.place_map

theorem reversedBitRange_not_mem_mixedReports (t : BitTemplate) (field opcode : String) :
    .reversedBitRange field opcode ∉ t.mixedReports := by
  simp [mixedReports]

theorem reversedBitRange_not_mem_read_spelling (h : ∀ f ∈ t.fields, Writable f.content f.width)
    (encoding field opcode : String) :
    .reversedBitRange field opcode ∉ (read t.spelling encoding).2 := by
  have hranges := (readings_spelling h t.spelling).2 field opcode
  simp only [read, List.mem_append, not_or]
  refine ⟨⟨hranges, reversedBitRange_not_mem_mixedReports _ field opcode⟩, ?_⟩
  split
  · simp
  · simp

/-- The template of a text without blanks is read again when it is written out. -/
theorem read_spelling (text encoding : String)
    (htext : ∀ c ∈ text.toList, Text.isBlank c = false) :
    let t := (read text encoding).1
    let again := read t.spelling encoding
    again.1.fields = t.fields ∧ again.1.width = t.width ∧ again.1.value = t.value ∧
      again.1.mask = t.mask ∧ ∀ field opcode, .reversedBitRange field opcode ∉ again.2 := by
  intro t again
  -- where there is no blank, nothing that was read would be trimmed the second time
  have hwritable : ∀ f ∈ t.fields, Writable f.content f.width :=
    writable_of_mem_fields text encoding htext
  have hfields : again.1.fields = t.fields :=
    fields_read_spelling (BitField.tiled_place _) hwritable encoding
  refine ⟨hfields, congrArg BitField.totalWidth hfields, congrArg BitField.valueOf hfields,
    congrArg BitField.maskOf hfields, ?_⟩
  exact reversedBitRange_not_mem_read_spelling hwritable encoding

/-- A mixed segment is written field by field, and a range that is the wrong way around is
written the right way. -/
theorem read_spelling_mixed :
    let t := (read "0010101S|Rn|'Rd[0:3]|ImmA:12" "A32").1
    t.spelling = "0010101|S:1|Rn:4|'Rd[3:0]|ImmA:12" ∧
      (read "0010101|S:1|Rn:4|'Rd[3:0]|ImmA:12" "A32").1.fields = t.fields := by
  intro t
  have hspelling : t.spelling = "0010101|S:1|Rn:4|'Rd[3:0]|ImmA:12" := by decide +kernel
  refine ⟨hspelling, ?_⟩
  rw [← hspelling]
  have hword : Text.isWord "0010101S|Rn|'Rd[0:3]|ImmA:12".toList = true := by decide +kernel
  exact (read_spelling "0010101S|Rn|'Rd[0:3]|ImmA:12" "A32" (Text.isWord_iff.mp hword).2).1

end BitTemplate

end InstrTable
