import InstrTable.Proofs.ByteOpcode.Legacy
import InstrTable.Proofs.ByteOpcode.Vector
import Mathlib.Algebra.Ring.Nat

/-!
The markers of immediates among the components of an opcode. Each of them adds its bits and no
other component does, so the width of all immediates is a sum over the words of the text. A marker
that the grammar of opcodes lists and that is not read is reported.
-/

namespace InstrTable

/-- The markers of an immediate, and their bits. -/
def immediateMarkers : List (String × Nat) := [("ib", 8), ("iw", 16), ("id", 32), ("iq", 64)]

/-- The markers that the grammar lists. Those of a register number stand behind a vector prefix
only. -/
def listedMarkers (vector : Bool) : List (String × Nat) :=
  if vector then immediateMarkers ++ [("is4", 4), ("/is4", 4)] else immediateMarkers

/-- The markers among the components of a set. -/
def ComponentSet.markers : ComponentSet → List (String × Nat)
  | .legacy => immediateMarkers
  | .vectorPrefix => []
  | .vectorBody => immediateMarkers ++ [("/is4", 4)]

/-- The bits of a component, if it is one of the markers. -/
def bitsOf (markers : List (String × Nat)) (component : String) : Nat :=
  (markers.lookup component).getD 0

/-- The bits of all markers among the components. -/
def totalBits (markers : List (String × Nat)) (components : List String) : Nat :=
  (components.map (bitsOf markers)).sum

/-- Whether a component is one of the markers. -/
def IsMarker (markers : List (String × Nat)) (component : String) : Prop :=
  component ∈ markers.map Prod.fst

instance (markers : List (String × Nat)) (component : String) :
    Decidable (IsMarker markers component) :=
  inferInstanceAs (Decidable (component ∈ markers.map Prod.fst))

theorem bitsOf_eq_zero {markers : List (String × Nat)} {component : String}
    (h : ¬IsMarker markers component) : bitsOf markers component = 0 := by
  have hnone : markers.lookup component = none := by
    rw [List.lookup_eq_none_iff]
    intro marker hmarker
    rw [bne_iff_ne]
    rintro rfl
    exact h (List.mem_map_of_mem hmarker)
  rw [bitsOf, hnone, Option.getD_none]

/-! ### What a component does -/

theorem Legacy.isMarker_of_ofComponent {component : String} {bits : Nat}
    (h : Token.ofComponent component = .immediate bits) :
    IsMarker ComponentSet.legacy.markers component := by
  have hsome : Token.immediate? component = some bits := by
    unfold Token.ofComponent at h
    grind
  exact (Option.ite_none_right_eq_some.mp hsome).1

theorem Vector.isMarker_of_ofComponent? {component : String} {bits : Nat}
    (h : Token.ofComponent? component = some (.immediate bits)) :
    IsMarker ComponentSet.vectorBody.markers component := by
  unfold Token.ofComponent? at h
  split at h
  · simp at h
  · split at h
    · simp at h
    · obtain ⟨size, hsize, -⟩ := Option.map_eq_some_iff.mp h
      exact (Option.ite_none_right_eq_some.mp hsize).1

namespace ComponentSet

variable {set : ComponentSet} {component : String}

/-- A marker adds its bits and does nothing else. -/
theorem step_marker (h : IsMarker set.markers component) (op : ByteOpcode) :
    set.step op component =
      ({ op with immediateWidth := op.immediateWidth + bitsOf set.markers component }, []) := by
  cases set with
  | legacy =>
      have hall : ∀ word ∈ legacy.markers.map Prod.fst,
          Legacy.Token.ofComponent word = .immediate (bitsOf legacy.markers word) := by decide
      have haction : Legacy.action? op (.ofComponent component) =
          some (.addImmediate (bitsOf legacy.markers component)) := by
        rw [hall component h]
        rfl
      exact Legacy.step_of_action haction
  | vectorPrefix => exact absurd h List.not_mem_nil
  | vectorBody =>
      have hall : ∀ word ∈ vectorBody.markers.map Prod.fst,
          Vector.Token.ofComponent? word = some (.immediate (bitsOf vectorBody.markers word)) := by
        decide
      rw [step, Vector.bodyStep, hall component h]
      rfl

/-- No other component changes the immediates. -/
theorem immediateWidth_step_of_not (h : ¬IsMarker set.markers component) (op : ByteOpcode) :
    (set.step op component).1.immediateWidth = op.immediateWidth := by
  cases set with
  | legacy =>
      simp only [step, Legacy.step]
      cases haction : Legacy.action? op (.ofComponent component) with
      | none => rfl
      | some action =>
          cases action with
          | placeOpcode byte embeds => exact (Legacy.takeOpcode_eq _ byte).2
          | addImmediate bits =>
              have htoken := Legacy.eq_immediate_of_action haction
              exact absurd (Legacy.isMarker_of_ofComponent htoken) h
          | _ => rfl
  | vectorPrefix =>
      simp only [step, Vector.partStep]
      cases Vector.Part.ofComponent? component with
      | none => rfl
      | some part => cases part <;> rfl
  | vectorBody =>
      simp only [step, Vector.bodyStep]
      cases htoken : Vector.Token.ofComponent? component with
      | none => rfl
      | some token =>
          cases token with
          | immediate bits => exact absurd (Vector.isMarker_of_ofComponent? htoken) h
          | _ => rfl

theorem immediateWidth_step (set : ComponentSet) (op : ByteOpcode) (component : String) :
    (set.step op component).1.immediateWidth =
      op.immediateWidth + bitsOf set.markers component := by
  by_cases h : IsMarker set.markers component
  · rw [step_marker h]
  · rw [immediateWidth_step_of_not h, bitsOf_eq_zero h, Nat.add_zero]

/-- A listed marker that is none of the set is reported. -/
theorem step_unread (hlisted : IsMarker (listedMarkers true) component)
    (h : ¬IsMarker set.markers component) (hset : set ≠ .vectorPrefix) (op : ByteOpcode) :
    set.step op component = (op, [.unknownOpcodeComponent op.text component]) := by
  cases set with
  | legacy =>
      have hall : ∀ word ∈ (listedMarkers true).map Prod.fst, ¬IsMarker legacy.markers word →
          Legacy.Token.ofComponent word = .other word := by decide
      rw [step, Legacy.step, hall component hlisted h]
      rfl
  | vectorPrefix => contradiction
  | vectorBody =>
      have hall : ∀ word ∈ (listedMarkers true).map Prod.fst, ¬IsMarker vectorBody.markers word →
          Vector.Token.ofComponent? word = none := by decide
      rw [step, Vector.bodyStep, hall component hlisted h]

/-- A component that is reported is the one that was read. -/
theorem eq_of_mem_step {op : ByteOpcode} {text marker : String}
    (h : .unknownOpcodeComponent text marker ∈ (set.step op component).2) :
    set ≠ .vectorPrefix ∧ marker = component := by
  cases set with
  | legacy =>
      simp only [step, Legacy.step] at h
      cases haction : Legacy.action? op (.ofComponent component) with
      | none => simp_all
      | some action =>
          rw [haction] at h
          cases action with
          | placeOpcode byte embeds =>
              simp only [Legacy.Action.apply, Legacy.takeOpcode] at h
              split_ifs at h <;> simp at h
          | _ => simp [Legacy.Action.apply] at h
  | vectorPrefix =>
      simp only [step, Vector.partStep] at h
      split at h <;> simp at h
  | vectorBody =>
      simp only [step, Vector.bodyStep] at h
      split at h <;> simp_all

/-- The text of an opcode stays as it is. -/
theorem text_step (set : ComponentSet) (op : ByteOpcode) (component : String) :
    (set.step op component).1.text = op.text := by
  cases set with
  | legacy =>
      simp only [step, Legacy.step]
      cases Legacy.action? op (.ofComponent component) with
      | none => rfl
      | some action =>
          cases action with
          | placeOpcode byte embeds =>
              simp only [Legacy.Action.apply, Legacy.takeOpcode]
              split_ifs <;> rfl
          | _ => rfl
  | vectorPrefix =>
      simp only [step, Vector.partStep]
      cases Vector.Part.ofComponent? component with
      | none => rfl
      | some part => cases part <;> rfl
  | vectorBody =>
      simp only [step, Vector.bodyStep]
      cases Vector.Token.ofComponent? component with
      | none => rfl
      | some token => cases token <;> rfl

end ComponentSet

/-! ### What a reading does -/

namespace ByteOpcode

/-- The set of the components of a text, or of those behind its prefix. -/
def bodySet (prefixed : Bool) : ComponentSet := if prefixed then .vectorBody else .legacy

variable {text marker : String}

theorem immediateWidth_run (set : ComponentSet) (op : ByteOpcode) (components : List String) :
    (run set.step op components).1.immediateWidth =
      op.immediateWidth + totalBits set.markers components := by
  induction components generalizing op with
  | nil => rfl
  | cons component components ih =>
      rw [run_cons, ih, set.immediateWidth_step]
      simp only [totalBits, List.map_cons, List.sum_cons]
      rw [Nat.add_assoc]

theorem text_run (set : ComponentSet) (op : ByteOpcode) (components : List String) :
    (run set.step op components).1.text = op.text :=
  run_keeps (P := fun op' => op'.text = op.text) set.step
    (fun op' component h => (set.text_step op' component).trans h) rfl components

/-- A run reports the listed markers that are none of its set, wherever they stand. -/
theorem mem_run_iff (set : ComponentSet) (hset : set ≠ .vectorPrefix)
    (hlisted : IsMarker (listedMarkers true) marker) (op : ByteOpcode) (components : List String) :
    .unknownOpcodeComponent op.text marker ∈ (run set.step op components).2 ↔
      marker ∈ components ∧ ¬IsMarker set.markers marker := by
  induction components generalizing op with
  | nil => simp
  | cons component components ih =>
      have hrest := ih (set.step op component).1
      rw [set.text_step] at hrest
      have hfirst : .unknownOpcodeComponent op.text marker ∈ (set.step op component).2 ↔
          marker = component ∧ ¬IsMarker set.markers marker := by
        constructor
        · intro h
          obtain rfl := (ComponentSet.eq_of_mem_step h).2
          refine ⟨rfl, fun hmarker => ?_⟩
          rw [ComponentSet.step_marker hmarker] at h
          contradiction
        · rintro ⟨rfl, hunread⟩
          rw [ComponentSet.step_unread hlisted hunread hset]
          exact List.mem_singleton_self _
      rw [run_cons, List.mem_append, hfirst, hrest, List.mem_cons, or_and_right]

theorem not_mem_run_prefix (op : ByteOpcode) (parts : List String) :
    .unknownOpcodeComponent text marker ∉ (run Vector.partStep op parts).2 := by
  have hreports := reports_stepsFrom .vectorPrefix op parts
  rw [ComponentSet.step] at hreports
  rw [hreports, List.mem_flatMap]
  rintro ⟨s, hs, hmem⟩
  exact (ComponentSet.eq_of_mem_step hmem).1 (set_of_mem_stepsFrom hs)

/-- The word that holds a vector prefix is no marker. -/
theorem not_isMarker_first (hprefixed : Vector.isPrefixed text = true) {first : String}
    {body : List String} (hwords : wordsOf text = first :: body) :
    ¬IsMarker (listedMarkers true) first := by
  have hall : ∀ word ∈ (listedMarkers true).map Prod.fst, '.' ∉ word.toList := by decide
  obtain ⟨name, -, rest, ws, hcons⟩ := Vector.exists_wordsOf_prefixed hprefixed
  obtain ⟨rfl, -⟩ := List.cons.inj (hwords.symm.trans hcons)
  exact fun hmarker => hall _ hmarker (by simp)

theorem isMarker_listed (prefixed : Bool) (h : IsMarker (bodySet prefixed).markers marker) :
    IsMarker (listedMarkers true) marker := by
  have hall : ∀ prefixed, ∀ word ∈ (bodySet prefixed).markers.map Prod.fst,
      IsMarker (listedMarkers true) word := by decide
  exact hall prefixed marker h

/-- The immediates of an opcode are the markers that are read, wherever they stand. -/
theorem immediateWidth_read (text : String) :
    (read text).1.immediateWidth =
      totalBits (bodySet (Vector.isPrefixed text)).markers (wordsOf text) := by
  have hsettle : (read text).1.immediateWidth = (readComponents text).1.immediateWidth :=
    (settle_eq _).2
  rw [hsettle, readComponents]
  cases hprefixed : Vector.isPrefixed text with
  | false =>
      have hrun := immediateWidth_run .legacy { text } (wordsOf text)
      rwa [Nat.zero_add] at hrun
  | true =>
      cases hwords : wordsOf text with
      | nil => rfl
      | cons first body =>
          let op := (run Vector.partStep { text } (piecesOf '.' first)).1
          have hop : op.immediateWidth = 0 :=
            run_keeps (P := fun op => op.immediateWidth = 0) Vector.partStep
              (fun op part h => (ComponentSet.immediateWidth_step .vectorPrefix op part).trans h)
              rfl _
          have hbody : (run Vector.bodyStep op body).1.immediateWidth =
              op.immediateWidth + totalBits ComponentSet.vectorBody.markers body :=
            immediateWidth_run .vectorBody op body
          have hfirst : bitsOf ComponentSet.vectorBody.markers first = 0 :=
            bitsOf_eq_zero fun h =>
              not_isMarker_first hprefixed hwords (isMarker_listed true h)
          simp only [if_true, bodySet, totalBits, List.map_cons, List.sum_cons, hfirst]
          rw [hbody, hop, totalBits]

/-- The listed markers that are not read are reported. -/
theorem mem_read_iff (hlisted : IsMarker (listedMarkers true) marker) :
    .unknownOpcodeComponent text marker ∈ (read text).2 ↔
      marker ∈ wordsOf text ∧ ¬IsMarker (bodySet (Vector.isPrefixed text)).markers marker := by
  have hcomponents : .unknownOpcodeComponent text marker ∈ (read text).2 ↔
      .unknownOpcodeComponent text marker ∈ (readComponents text).2 := by
    simp only [read, List.mem_append]
    split <;> simp
  rw [hcomponents, readComponents]
  cases hprefixed : Vector.isPrefixed text with
  | false => exact mem_run_iff .legacy (by decide) hlisted { text } (wordsOf text)
  | true =>
      cases hwords : wordsOf text with
      | nil => simp
      | cons first body =>
          have hfirst : marker ≠ first := by
            rintro rfl
            exact not_isMarker_first hprefixed hwords hlisted
          let op := (run Vector.partStep { text } (piecesOf '.' first)).1
          have htext : op.text = text := text_run .vectorPrefix { text } (piecesOf '.' first)
          have hbody : .unknownOpcodeComponent op.text marker ∈ (run Vector.bodyStep op body).2 ↔
              marker ∈ body ∧ ¬IsMarker ComponentSet.vectorBody.markers marker :=
            mem_run_iff .vectorBody (by decide) hlisted op body
          rw [htext] at hbody
          simp only [if_true, List.mem_append, not_mem_run_prefix, false_or, List.mem_cons, hfirst]
          exact hbody

end ByteOpcode

end InstrTable
