import InstrTable.Proofs.BitTemplate.Suffix
import InstrTable.Proofs.BitTemplate.Tiling

/-!
Ranges of bits in templates. A slice that is written the wrong way round is reported and turned
around, and a field without a name is reported and dropped, so that slices are always in order.
A width of no bits is neither reported nor dropped: it is the one way to a field without bits,
and so to an item of a layout that ends below its start.
-/

namespace InstrTable

/-- What holds of all that are on one side of a relation, just where something holds of all that
are on the other. -/
theorem forall_mem_iff_of_forall₂ {α β : Type} {R : α → β → Prop} {p : α → Prop} {q : β → Prop}
    {as : List α} {bs : List β} (h : List.Forall₂ R as bs)
    (hR : ∀ a, ∀ b ∈ bs, R a b → (p a ↔ q b)) : (∀ a ∈ as, p a) ↔ ∀ b ∈ bs, q b := by
  induction h with
  | nil => simp
  | cons hab _ ih =>
      rw [List.forall_mem_cons, List.forall_mem_cons, hR _ _ List.mem_cons_self hab,
        ih fun a b hb => hR a b (List.mem_cons_of_mem _ hb)]

/-- How a field that has bits is printed: with its highest bit and with its lowest. -/
def BitField.Prints (f : BitField) (item : String) : Prop :=
  ∃ hi : Nat, f.lsb ≤ hi ∧ item = s!"{f.label}[{hi}:{f.lsb}]"

namespace BitTemplate

/-- A segment that ends in a range of bits whose first bit is below its last. -/
def IsReversed (segment : List Char) : Prop :=
  ∃ front high low first last,
    Text.dropFinalNewline (unquoted segment) = front ++ '[' :: (high ++ ':' :: low) ++ [']'] ∧
      blankedNat? high = some first ∧ blankedNat? low = some last ∧ first < last

/-- A segment with a name that is written with a width of no bits. -/
def IsWidthless (segment : List Char) : Prop :=
  ∃ front digits, Text.dropFinalNewline (unquoted segment) = front ++ ':' :: digits ∧
    Text.trim front ≠ [] ∧ Text.nat? (Text.trimStart digits) = some 0

variable {segment name : List Char} {suffix : Suffix} {content : FieldContent} {width : Nat}

theorem isReversed_iff :
    IsReversed segment ↔ ∃ name first last,
      takeSuffix? (unquoted segment) = some (name, .slice first last) ∧ first < last := by
  simp only [IsReversed, takeSuffix?_slice_iff]
  constructor
  · rintro ⟨front, high, low, first, last, htext, hhigh, hlow, hlt⟩
    exact ⟨_, first, last, ⟨front, high, low, htext, rfl, hhigh, hlow⟩, hlt⟩
  · rintro ⟨_, first, last, ⟨front, high, low, htext, -, hhigh, hlow⟩, hlt⟩
    exact ⟨front, high, low, first, last, htext, hhigh, hlow, hlt⟩

theorem isWidthless_iff :
    IsWidthless segment ↔ ∃ name ≠ [],
      takeSuffix? (unquoted segment) = some (name, .width 0) := by
  simp only [IsWidthless, takeSuffix?_width_iff]
  constructor
  · rintro ⟨front, digits, htext, hname, hzero⟩
    exact ⟨_, hname, front, digits, htext, rfl, hzero⟩
  · rintro ⟨_, hname, front, digits, htext, rfl, hzero⟩
    exact ⟨front, digits, htext, hname, hzero⟩

instance : DecidablePred IsWidthless := fun segment =>
  decidable_of_iff ((takeSuffix? (unquoted segment)).any fun taken =>
      taken.1 ≠ [] ∧ taken.2 = .width 0) <| by
    rw [isWidthless_iff]
    cases takeSuffix? (unquoted segment) with
    | none => simp
    | some taken => simp [Prod.ext_iff]

/-! ### Segments -/

/-- No run of bits has a suffix. -/
theorem isRun_eq_false (h : takeSuffix? (unquoted segment) = some (name, suffix)) :
    isRun segment = false := by
  have hsign : ∃ c ∈ Text.dropFinalNewline (unquoted segment), isBit c = false := by
    obtain ⟨front, -, hbracket | hwidth⟩ := exists_of_takeSuffix? h
    · obtain ⟨inner, htext, -⟩ := exists_of_takeBracket? hbracket
      exact ⟨'[', by simp [htext], by decide⟩
    · obtain ⟨digits, _, htext, -⟩ := exists_of_takeWidth? hwidth
      exact ⟨':', by simp [htext], by decide⟩
  obtain ⟨c, hc, hbit⟩ := hsign
  have hsegment : c ∈ segment := unquoted_subset segment (Text.dropFinalNewline_subset _ hc)
  have hall : segment.all isBit = false := List.all_eq_false.mpr ⟨c, hsegment, by simp [hbit]⟩
  rw [isRun, hall, Bool.and_false]

theorem IsWidthless.isField (h : IsWidthless segment) : isField segment = true := by
  obtain ⟨name, hname, hsuffix⟩ := isWidthless_iff.mp h
  simp [BitTemplate.isField, nameIn, hsuffix, hname]

theorem reversedBitRange_mem_readSegment (opcode : String) (h : IsReversed segment) :
    .reversedBitRange (String.ofList (unquoted segment)) opcode ∈
      (readSegment opcode segment).2 := by
  obtain ⟨name, first, last, hsuffix, hlt⟩ := isReversed_iff.mp h
  rw [readSegment_eq_readNamed opcode (isRun_eq_false hsuffix)]
  simp only [readNamed, hsuffix, hlt, if_true]
  split <;> simp

/-- What is written behind a name the wrong way round is turned around. -/
theorem Spells.slice_le (h : Spells segment content width) {hi lo : Nat}
    (hslice : content.slice? = some (hi, lo)) : lo ≤ hi := by
  cases h with
  | range first last =>
      obtain ⟨rfl, rfl⟩ := Prod.mk.inj (Option.some.inj hslice)
      exact Nat.le_trans (Nat.min_le_left ..) (Nat.le_max_left ..)
  | index n =>
      obtain ⟨rfl, rfl⟩ := Prod.mk.inj (Option.some.inj hslice)
      exact Nat.le_refl n
  | _ => contradiction

theorem bits_pos_of_knownField? {name : String} {field : KnownField}
    (h : knownField? name = some field) : 0 < field.bits := by
  have htable : ∀ entry ∈ knownFields, 0 < entry.2.bits := by decide
  obtain ⟨front, back, hfields, -⟩ := List.lookup_eq_some_iff.mp h
  exact htable (name, field) (by simp [hfields])

/-- A field has no bits just where it is written to have none. -/
theorem Spells.width_eq_zero_iff (h : Spells segment content width) :
    width = 0 ↔ IsWidthless segment := by
  rw [isWidthless_iff]
  cases h with
  | run hrun =>
      have hne : segment ≠ [] := by
        rintro rfl
        contradiction
      have hsuffix (name : List Char) :
          takeSuffix? (unquoted segment) ≠ some (name, .width 0) := fun hsome => by
        rw [isRun_eq_false hsome] at hrun
        contradiction
      simp [hne, hsuffix]
  | range first last _ hs => simp [hs]
  | index n _ hs => simp [hs]
  | width n _ hs hn =>
      simp only [hs, Option.some.injEq, Prod.mk.injEq, Suffix.width.injEq]
      exact ⟨fun hzero => ⟨_, hn, rfl, hzero⟩, fun ⟨_, _, _, hzero⟩ => hzero⟩
  | bare _ hs =>
      have hbits : ((knownField? (String.ofList (unquoted segment))).map (·.bits)).getD 1 ≠ 0 := by
        cases hknown : knownField? (String.ofList (unquoted segment)) with
        | none => simp
        | some field => exact Nat.ne_of_gt (bits_pos_of_knownField? hknown)
      simp [hs, hbits]

/-! ### Templates -/

section read

variable (text encoding : String)

theorem mem_read_of_mem_readSegment {segment : String} (hsegment : segment ∈ bitSegments text)
    {x : Diagnostic} (hx : x ∈ (readSegment text segment.toList).2) :
    x ∈ (read text encoding).2 := by
  obtain ⟨cs, hcs, rfl⟩ := List.mem_map.mp hsegment
  rw [String.toList_ofList] at hx
  simp only [read, List.mem_append]
  refine .inl (.inl (List.mem_flatMap.mpr ⟨readSegment text cs, ?_, hx⟩))
  exact List.mem_map_of_mem hcs

theorem slice_le_of_mem_fields : ∀ f ∈ (read text encoding).1.fields, ∀ hi lo,
    f.content.slice? = some (hi, lo) → lo ≤ hi := by
  intro f hf hi lo hslice
  obtain ⟨segment, -, hspells⟩ := exists_spells (spells_fields text encoding) f hf
  exact hspells.slice_le hslice

theorem width_pos_iff :
    (∀ f ∈ (read text encoding).1.fields, 0 < f.width) ↔
      ∀ segment ∈ segments text.toList, ¬IsWidthless segment := by
  have hfields : (∀ segment ∈ (segments text.toList).filter isField, ¬IsWidthless segment) ↔
      ∀ f ∈ (read text encoding).1.fields, 0 < f.width :=
    forall_mem_iff_of_forall₂ (spells_fields text encoding) fun segment f _ hspells => by
      rw [← hspells.width_eq_zero_iff, Nat.pos_iff_ne_zero]
  rw [← hfields]
  constructor
  · intro h segment hsegment hwidthless
    exact h segment (List.mem_filter.mpr ⟨hsegment, hwidthless.isField⟩) hwidthless
  · exact fun h segment hsegment => h segment (List.mem_of_mem_filter hsegment)

end read

/-- Where every field has bits, no item of the layout ends below its start. -/
theorem exists_layout {t : BitTemplate} (h : ∀ f ∈ t.fields, 0 < f.width) :
    ∃ items, t.layout = " ".intercalate items ∧ List.Forall₂ BitField.Prints t.fields items := by
  rw [layout, fieldLayout, List.map_map]
  refine ⟨_, rfl, ?_⟩
  rw [List.forall₂_map_right_iff, List.forall₂_same]
  intro f hf
  have hpos := h f hf
  refine ⟨f.lsb + f.width - 1, by omega, ?_⟩
  have hhigh : (f.lsb : Int) + f.width - 1 = ((f.lsb + f.width - 1 : Nat) : Int) := by omega
  simp only [Function.comp, hhigh]
  rfl

/-- A template whose slices are in order and whose fields have bits, so that its layout tells
where each of them begins and ends. -/
structure WellRanged (t : BitTemplate) : Prop where
  slices : ∀ f ∈ t.fields, ∀ hi lo, f.content.slice? = some (hi, lo) → lo ≤ hi
  widths : ∀ f ∈ t.fields, 0 < f.width
  layout : ∃ items, t.layout = " ".intercalate items ∧ List.Forall₂ BitField.Prints t.fields items

theorem wellRanged_read_iff (text encoding : String) :
    (read text encoding).1.WellRanged ↔
      ∀ segment ∈ bitSegments text, ¬IsWidthless segment.toList := by
  have hsegments : (∀ segment ∈ bitSegments text, ¬IsWidthless segment.toList) ↔
      ∀ segment ∈ segments text.toList, ¬IsWidthless segment := by simp [bitSegments]
  rw [hsegments, ← width_pos_iff text encoding]
  constructor
  · exact WellRanged.widths
  · intro h
    exact
      { slices := slice_le_of_mem_fields text encoding
        widths := h
        layout := exists_layout h }

end BitTemplate

end InstrTable
