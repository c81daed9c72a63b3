import InstrTable.Proofs.BitTemplate.Rereading

/-!
Templates side by side. A segment is read without regard to its neighbours, so that the fields
of two templates with a bar between them are the fields of both, those of the first above those
of the second. Cutting a text into segments is done once: its segments are cut no further.
-/

namespace InstrTable

/-! ### Fields side by side -/

namespace BitField

/-- A field with `n` more bits below it. -/
def raise (n : Nat) (f : BitField) : BitField := { f with lsb := f.lsb + n }

theorem totalWidth_append (fs gs : List BitField) :
    totalWidth (fs ++ gs) = totalWidth fs + totalWidth gs := by
  simp only [totalWidth_eq_sum, List.map_append, List.sum_append]

theorem totalWidth_map_raise (n : Nat) (fs : List BitField) :
    totalWidth (fs.map (raise n)) = totalWidth fs := by
  simp [totalWidth_eq_sum, raise, Function.comp_def]

/-- Parts in front of others are placed above them. -/
theorem place_append (parts others : List (FieldContent × Nat)) :
    place (parts ++ others) =
      (place parts).map (raise (totalWidth (place others))) ++ place others := by
  induction parts with
  | nil => rfl
  | cons part parts ih =>
      simp only [List.cons_append, place, ih, totalWidth_append, totalWidth_map_raise,
        List.map_cons, raise]

theorem assemble_append (digits : BitField → Nat) (fs gs : List BitField) :
    assemble digits (fs ++ gs) =
      assemble digits fs * 2 ^ totalWidth gs + assemble digits gs := by
  have hfold := foldl_assemble digits gs (assemble digits fs)
  rw [Nat.mul_comm] at hfold
  rw [← hfold]
  exact List.foldl_append

/-- Digits that do not depend on the place of a field are the same in a higher place. -/
theorem assemble_map_raise {digits : BitField → Nat} (n : Nat)
    (h : ∀ f, digits (f.raise n) = digits f) (fs : List BitField) :
    assemble digits (fs.map (raise n)) = assemble digits fs := by
  simp only [assemble, List.foldl_map, h]
  rfl

end BitField

namespace BitTemplate

/-- The parts that a text says, before they are placed. -/
def partsOf (cs : List Char) : List (FieldContent × Nat) :=
  (segments cs).filterMap fun segment => (readSegment "" segment).1

/-- The text is only looked at for reports. -/
theorem readSegment_fst (opcode : String) (segment : List Char) :
    (readSegment opcode segment).1 = (readSegment "" segment).1 := by
  unfold readSegment
  split
  · rfl
  · rcases hsuffix : takeSuffix? (unquoted segment) with _ | ⟨name, suffix⟩
    · simp only [readNamed, hsuffix]
      split <;> rfl
    · cases suffix <;> simp only [readNamed, hsuffix] <;> split <;> rfl

theorem fields_read (text encoding : String) :
    (read text encoding).1.fields = BitField.place (partsOf text.toList) := by
  simp only [read, partsOf, List.filterMap_map]
  refine congrArg BitField.place (List.filterMap_congr fun segment _ => ?_)
  exact readSegment_fst text segment

/-! ### Segments -/

theorem segments_append (front back : List Char) :
    segments (front ++ '|' :: back) = segments front ++ segments back := by
  simp only [segments, Text.pieces_append, List.flatMap_append]

theorem isPlain_of_isMixed {c : Char} (h : isMixed c = true) : IsPlain c := by
  simp only [isMixed, isBit, Bool.or_eq_true, Bool.and_eq_true, decide_eq_true_eq] at h
  rcases h with (rfl | rfl) | ⟨hlow, hhigh⟩
  · exact ⟨by decide, by decide⟩
  · exact ⟨by decide, by decide⟩
  · have hge : 65 ≤ c.toNat := hlow
    have hle : c.toNat ≤ 90 := hhigh
    refine ⟨?_, ?_⟩
    · simp only [Text.isBlank, Bool.or_eq_false_iff, Bool.and_eq_false_imp, decide_eq_true_eq,
        decide_eq_false_iff_not, beq_eq_false_iff_ne]
      omega
    · rintro rfl
      contradiction

/-- What a mixed segment is short for are runs of bits and single characters. -/
theorem mem_mixedParts {part cs : List Char} (h : part ∈ mixedParts cs) :
    (part ≠ [] ∧ ∀ c ∈ part, isBit c = true) ∨ ∃ c, part = [c] := by
  induction cs generalizing part with
  | nil => contradiction
  | cons c cs ih =>
      unfold mixedParts at h
      split at h
      case isFalse =>
        rcases List.mem_cons.mp h with rfl | hpart
        · exact .inr ⟨c, rfl⟩
        · exact ih hpart
      case isTrue hc =>
        split at h
        case h_2 =>
          rcases List.mem_cons.mp h with rfl | hpart
          · exact .inr ⟨c, rfl⟩
          · exact ih hpart
        case h_1 d ds p ps hparts =>
          rw [hparts] at ih
          split at h
          case isFalse =>
            rcases List.mem_cons.mp h with rfl | hpart
            · exact .inr ⟨c, rfl⟩
            · exact ih hpart
          case isTrue hd =>
            rcases List.mem_cons.mp h with rfl | hpart
            · -- a run grows at its front; a single character in front of which one is put is
              -- the bit that the text goes on with
              have hp : ∀ e ∈ p, isBit e = true := by
                rcases ih List.mem_cons_self with ⟨-, hbits⟩ | ⟨e, rfl⟩
                · exact hbits
                · have hflat := flatten_mixedParts (d :: ds)
                  rw [hparts, List.flatten_cons, List.singleton_append] at hflat
                  simpa [(List.cons.inj hflat).1] using hd
              exact .inl ⟨List.cons_ne_nil c p, List.forall_mem_cons.mpr ⟨hc, hp⟩⟩
            · exact ih (List.mem_cons_of_mem p hpart)

/-- A text between bars that is short for itself alone. -/
structure IsSegment (segment : List Char) : Prop where
  no_bar : '|' ∉ segment
  trim_eq : Text.trim segment = segment
  expand_eq : expandSegment segment = [segment]

theorem expandSegment_singleton (c : Char) : expandSegment [c] = [[c]] := by
  simp [expandSegment]

theorem isSegment_of_mem_mixedParts {part cs : List Char} (hcs : ∀ c ∈ cs, isMixed c = true)
    (h : part ∈ mixedParts cs) : IsSegment part := by
  have hplain : ∀ c ∈ part, IsPlain c := fun c hc => by
    have hmem : c ∈ (mixedParts cs).flatten := List.mem_flatten.mpr ⟨part, h, hc⟩
    rw [flatten_mixedParts] at hmem
    exact isPlain_of_isMixed (hcs c hmem)
  refine ⟨fun hbar => (hplain '|' hbar).2 rfl, Text.trim_eq_self fun c hc => (hplain c hc).1, ?_⟩
  rcases mem_mixedParts h with ⟨hne, hbits⟩ | ⟨c, rfl⟩
  · exact expandSegment_bits hne hbits
  · exact expandSegment_singleton c

/-- What a text was cut into is not cut again. -/
theorem isSegment_of_mem_segments {segment cs : List Char} (h : segment ∈ segments cs) :
    IsSegment segment := by
  obtain ⟨piece, hpiece, hsegment⟩ := List.mem_flatMap.mp h
  unfold expandSegment at hsegment
  split at hsegment
  case isTrue hmixed =>
    simp only [Bool.and_eq_true, List.all_eq_true] at hmixed
    exact isSegment_of_mem_mixedParts hmixed.1.2 hsegment
  case isFalse hmixed =>
    obtain rfl := List.mem_singleton.mp hsegment
    exact
      { no_bar := fun hbar => Text.not_mem_of_mem_pieces hpiece (Text.trim_subset piece hbar)
        trim_eq := Text.trim_trim piece
        expand_eq := if_neg hmixed }

theorem expandSegment_ne_nil (cs : List Char) : expandSegment cs ≠ [] := by
  intro hnil
  have hcs := flatten_expandSegment cs
  rw [hnil] at hcs
  obtain rfl : cs = [] := hcs.symm
  contradiction

theorem segments_ne_nil (cs : List Char) : segments cs ≠ [] := by
  obtain ⟨piece, pieces, hpieces⟩ := List.exists_cons_of_ne_nil (Text.pieces_ne_nil '|' cs)
  rw [segments, hpieces, List.flatMap_cons]
  exact List.append_ne_nil_of_left_ne_nil (expandSegment_ne_nil (Text.trim piece)) _

/-- The segments of a text, with bars between them, are cut as the text is. -/
theorem segments_joined (cs : List Char) :
    segments (Text.joined '|' (segments cs)) = segments cs := by
  have hsegments : ∀ segment ∈ segments cs, IsSegment segment := fun _ =>
    isSegment_of_mem_segments
  have hpieces : Text.pieces '|' (Text.joined '|' (segments cs)) = segments cs :=
    Text.pieces_joined (segments_ne_nil cs) fun segment h => (hsegments segment h).no_bar
  rw [segments, hpieces]
  calc (segments cs).flatMap (fun segment => expandSegment (Text.trim segment))
    _ = (segments cs).flatMap fun segment => [segment] :=
      List.flatMap_congr fun segment h => by
        rw [(hsegments segment h).trim_eq, (hsegments segment h).expand_eq]
    _ = segments cs := List.flatMap_singleton' (segments cs)

theorem toList_intercalate_bitSegments (s : String) :
    ("|".intercalate (bitSegments s)).toList = Text.joined '|' (segments s.toList) := by
  rw [toList_intercalate_bar, bitSegments, List.map_map]
  simp [Function.comp_def]

/-! ### Templates -/

theorem fields_read_append (s t encoding : String) :
    (read (s ++ "|" ++ t) encoding).1.fields =
      (read s encoding).1.fields.map (BitField.raise (read t encoding).1.width) ++
        (read t encoding).1.fields := by
  have htext : (s ++ "|" ++ t).toList = s.toList ++ '|' :: t.toList := by simp
  have hparts : partsOf (s ++ "|" ++ t).toList = partsOf s.toList ++ partsOf t.toList := by
    rw [htext, partsOf, segments_append, List.filterMap_append]
    rfl
  rw [width, fields_read, fields_read, fields_read, hparts]
  exact BitField.place_append _ _

/-- Whether the word of a template is that of `high` above that of `low`. -/
structure Stacks (high low t : BitTemplate) : Prop where
  width : t.width = high.width + low.width
  value : t.value = high.value * 2 ^ low.width + low.value
  mask : t.mask = high.mask * 2 ^ low.width + low.mask
  fields : t.fields = high.fields.map (BitField.raise low.width) ++ low.fields

theorem stacks_of_fields {high low t : BitTemplate}
    (h : t.fields = high.fields.map (BitField.raise low.width) ++ low.fields) :
    Stacks high low t := by
  have hword (digits : BitField → Nat) (hdigits : ∀ f, digits (f.raise low.width) = digits f) :
      BitField.assemble digits t.fields =
        BitField.assemble digits high.fields * 2 ^ low.width +
          BitField.assemble digits low.fields := by
    rw [h, BitField.assemble_append, BitField.assemble_map_raise low.width hdigits]
    rfl
  refine ⟨?_, hword _ fun _ => rfl, hword _ fun _ => rfl, h⟩
  rw [width, h, BitField.totalWidth_append, BitField.totalWidth_map_raise]
  rfl

/-- Of two texts with a bar between them, the template of the first stands above that of the
second. Every text means the same as its segments with bars between them. -/
theorem read_composes (s t encoding : String) :
    Stacks (read s encoding).1 (read t encoding).1 (read (s ++ "|" ++ t) encoding).1 ∧
      let joined := "|".intercalate (bitSegments s)
      let template := (read s encoding).1
      let again := (read joined encoding).1
      bitSegments joined = bitSegments s ∧ again.fields = template.fields ∧
        again.width = template.width ∧ again.value = template.value ∧
        again.mask = template.mask := by
  refine ⟨stacks_of_fields (fields_read_append s t encoding), ?_⟩
  intro joined template again
  have hsegments : segments joined.toList = segments s.toList := by
    rw [toList_intercalate_bitSegments]
    exact segments_joined s.toList
  have hfields : again.fields = template.fields := by
    simp only [again, template, fields_read, partsOf, hsegments]
  refine ⟨?_, hfields, congrArg BitField.totalWidth hfields, congrArg BitField.valueOf hfields,
    congrArg BitField.maskOf hfields⟩
  rw [bitSegments, hsegments]
  rfl

/-- A mixed segment means the same as its pieces. -/
example : (read "0010101S|Rn" "A32").1.fields = (read "0010101|S|Rn" "A32").1.fields := by
  decide +kernel

end BitTemplate

end InstrTable
