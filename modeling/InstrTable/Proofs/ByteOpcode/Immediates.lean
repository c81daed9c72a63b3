import InstrTable.Proofs.ByteOpcode.Markers
import InstrTable.Proofs.ByteOpcode.Spacing

/-!
The immediates of an opcode against the grammar. The markers that are read are not all that the
grammar lists: behind a vector prefix `is4` needs its slash, and a vector prefix behind a blank
is not seen.
-/

namespace InstrTable

/-- If no component has more bits by one list of markers than by another, neither have all of
them together, and they have as many only if no component has less. -/
theorem totalBits_eq_iff {markers others : List (String × Nat)}
    (hle : ∀ component, bitsOf markers component ≤ bitsOf others component)
    (components : List String) :
    totalBits markers components ≤ totalBits others components ∧
      (totalBits markers components = totalBits others components ↔
        ∀ component ∈ components, bitsOf markers component = bitsOf others component) := by
  induction components with
  | nil => simp [totalBits]
  | cons component components ih =>
      obtain ⟨hrest, hiff⟩ := ih
      have hcomponent := hle component
      rw [List.forall_mem_cons, ← hiff]
      simp only [totalBits, List.map_cons, List.sum_cons] at hrest ⊢
      omega

namespace ByteOpcode

variable {marker : String}

/-- A marker of a register number that the grammar lists and the set of a body does not have:
the one without a slash, and both where the vector prefix is not seen. -/
def IsMissed (vector prefixed : Bool) (component : String) : Prop :=
  vector = true ∧ (component = "is4" ∨ prefixed = false ∧ component = "/is4")

instance (vector prefixed : Bool) (component : String) :
    Decidable (IsMissed vector prefixed component) :=
  inferInstanceAs (Decidable (_ ∧ _))

theorem isMarker_listed_true {vector : Bool} (h : IsMarker (listedMarkers vector) marker) :
    IsMarker (listedMarkers true) marker := by
  cases vector with
  | false => exact List.mem_append_left _ h
  | true => exact h

variable {vector prefixed : Bool}

theorem not_isMissed {component : String} (h : ¬IsMarker (listedMarkers true) component) :
    ¬IsMissed vector prefixed component := by
  have hall : ∀ word ∈ ["is4", "/is4"], IsMarker (listedMarkers true) word := by decide
  rintro ⟨-, rfl | ⟨-, rfl⟩⟩
  · exact h (hall "is4" (by decide))
  · exact h (hall "/is4" (by decide))

theorem isMissed_iff (h : prefixed = true → vector = true) (component : String) :
    IsMissed vector prefixed component ↔
      IsMarker (listedMarkers vector) component ∧
        ¬IsMarker (bodySet prefixed).markers component := by
  by_cases hlisted : IsMarker (listedMarkers true) component
  · have hall : ∀ vector prefixed, (prefixed = true → vector = true) →
        ∀ word ∈ (listedMarkers true).map Prod.fst,
          (IsMissed vector prefixed word ↔
            IsMarker (listedMarkers vector) word ∧ ¬IsMarker (bodySet prefixed).markers word) := by
      decide
    exact hall vector prefixed h component hlisted
  · have hvector : ¬IsMarker (listedMarkers vector) component := mt isMarker_listed_true hlisted
    simp [not_isMissed hlisted, hvector]

/-- A missed marker has the four bits of a register number. -/
theorem bitsOf_listed (h : prefixed = true → vector = true) (component : String) :
    bitsOf (listedMarkers vector) component = bitsOf (bodySet prefixed).markers component +
      if IsMissed vector prefixed component then 4 else 0 := by
  by_cases hlisted : IsMarker (listedMarkers true) component
  · have hall : ∀ vector prefixed, (prefixed = true → vector = true) →
        ∀ word ∈ (listedMarkers true).map Prod.fst,
          bitsOf (listedMarkers vector) word = bitsOf (bodySet prefixed).markers word +
            if IsMissed vector prefixed word then 4 else 0 := by
      decide
    exact hall vector prefixed h component hlisted
  · have hvector : ¬IsMarker (listedMarkers vector) component := mt isMarker_listed_true hlisted
    have hset : ¬IsMarker (bodySet prefixed).markers component :=
      mt (isMarker_listed prefixed) hlisted
    rw [bitsOf_eq_zero hvector, bitsOf_eq_zero hset, if_neg (not_isMissed hlisted)]

/-- A word of a text is missed just if it is a register number without its slash, or one with it
in a text that begins with a blank, and the first word has a vector prefix. -/
theorem exists_isMissed_iff (text : String) :
    (∃ word ∈ wordsOf text, IsMissed (Vector.opensPrefixed text) (Vector.isPrefixed text) word) ↔
      Vector.opensPrefixed text = true ∧
        ("is4" ∈ wordsOf text ∨ beginsBlank text = true ∧ "/is4" ∈ wordsOf text) := by
  have hblank (h : Vector.opensPrefixed text = true) :
      Vector.isPrefixed text = false ↔ beginsBlank text = true := by
    rw [← Bool.not_eq_true, Vector.isPrefixed_iff]
    simp [h]
  constructor
  · rintro ⟨word, hword, hvector, rfl | ⟨hprefixed, rfl⟩⟩
    · exact ⟨hvector, .inl hword⟩
    · exact ⟨hvector, .inr ⟨(hblank hvector).mp hprefixed, hword⟩⟩
  · rintro ⟨hvector, hword | ⟨hbegins, hword⟩⟩
    · exact ⟨"is4", hword, hvector, .inl rfl⟩
    · exact ⟨"/is4", hword, hvector, .inr ⟨(hblank hvector).mpr hbegins, rfl⟩⟩

/-- The immediates of an opcode are the sum of the markers that are read among the components,
wherever they stand. They are those that the grammar lists, and none of these is reported, unless
the first component has a vector prefix and a register number is written without its slash, or
with it in a text that begins with a blank. -/
theorem immediates_as_listed_iff (text : String) :
    let words := wordsOf text
    let listed := listedMarkers (Vector.opensPrefixed text)
    let missed := Vector.opensPrefixed text = true ∧
      ("is4" ∈ words ∨ beginsBlank text = true ∧ "/is4" ∈ words)
    (read text).1.immediateWidth = totalBits (bodySet (Vector.isPrefixed text)).markers words ∧
      ((read text).1.immediateWidth = totalBits listed words ↔ ¬missed) ∧
      ((∀ marker, IsMarker listed marker →
          .unknownOpcodeComponent text marker ∉ (read text).2) ↔ ¬missed) := by
  intro words listed missed
  have hprefixed : Vector.isPrefixed text = true → Vector.opensPrefixed text = true :=
    fun h => (Vector.isPrefixed_iff.mp h).2
  have hbits := bitsOf_listed hprefixed
  have hmissed : ¬missed ↔
      ∀ word ∈ words, ¬IsMissed (Vector.opensPrefixed text) (Vector.isPrefixed text) word := by
    refine (not_congr (exists_isMissed_iff text).symm).trans ?_
    simp [words]
  refine ⟨immediateWidth_read text, ?_, ?_⟩
  · obtain ⟨-, hequal⟩ := totalBits_eq_iff
      (fun component => (hbits component).symm ▸ Nat.le_add_right _ _) words
    rw [immediateWidth_read, hequal, hmissed]
    refine forall₂_congr fun word _ => ?_
    rw [hbits word, Nat.left_eq_add]
    simp
  · rw [hmissed]
    constructor
    · intro h word hword hmiss
      obtain ⟨hlisted, hunread⟩ := (isMissed_iff hprefixed word).mp hmiss
      exact h word hlisted ((mem_read_iff (isMarker_listed_true hlisted)).mpr ⟨hword, hunread⟩)
    · intro h marker hlisted hreport
      obtain ⟨hword, hunread⟩ := (mem_read_iff (isMarker_listed_true hlisted)).mp hreport
      exact h marker hword ((isMissed_iff hprefixed marker).mpr ⟨hlisted, hunread⟩)

/-- A register number without its slash is reported and has no bits. -/
theorem immediates_missing_register_number :
    let text := "VEX.128.66.0F3A.W0 4A /r is4"
    (read text).1.immediateWidth = 0 ∧
      totalBits (listedMarkers (Vector.opensPrefixed text)) (wordsOf text) = 4 ∧
      (read text).2 = [.unknownOpcodeComponent text "is4"] := by
  decide

end ByteOpcode

end InstrTable
