import InstrTable.Proofs.ByteOpcode.Legacy
import InstrTable.Proofs.ByteOpcode.Vector
import Mathlib.Logic.Basic

/-!
Opcode bytes and ModRM fields that a later component replaces. A legacy opcode that
is read without a report loses none: a byte that gives way is an escape, a prefix,
or a mark of the address size from then on. Behind a vector prefix the last byte and
the last field win without a word, so there nothing is lost only if no more than one
of each is written.
-/

namespace InstrTable

/-- Whether the byte that was the opcode before a step is still told after it. -/
def ReadingStep.KeepsOpcode (s : ReadingStep) : Prop :=
  s.after.escapeMap = s.before.escapeMap ++ s.before.opcode ∨
    s.after.mandatory = s.before.mandatory ++ s.before.opcode ∨
    (s.before.opcode = "67" ∧ s.after.addressSizeOverride = true)

/-- Whether a step replaces an opcode byte that is not told elsewhere, or a ModRM
field. -/
def ReadingStep.Overwrites (s : ReadingStep) : Prop :=
  (s.rule? = some "opcode" ∧ s.before.opcode ≠ "" ∧ ¬s.KeepsOpcode) ∨
    (s.rule? = some "modrm" ∧ s.before.modrm ≠ "")

instance (s : ReadingStep) : Decidable s.KeepsOpcode := inferInstanceAs (Decidable (_ ∨ _ ∨ _))

instance (s : ReadingStep) : Decidable s.Overwrites := inferInstanceAs (Decidable (_ ∨ _))

/-! ### Legacy opcodes -/

theorem Legacy.keepsOpcode_takeOpcode {op : ByteOpcode} {byte : String} (hop : op.opcode ≠ "")
    (h : (takeOpcode op byte).2 = []) :
    (takeOpcode op byte).1.escapeMap = op.escapeMap ++ op.opcode ∨
      (takeOpcode op byte).1.mandatory = op.mandatory ++ op.opcode ∨
      (op.opcode = "67" ∧ (takeOpcode op byte).1.addressSizeOverride = true) := by
  rcases takeOpcode_cases op byte with ⟨_, _, heq⟩ | ⟨hmandatory, _, heq⟩ | ⟨hmap, _, heq⟩ |
    ⟨hempty, _⟩ | ⟨haddress, heq⟩ | ⟨_, _, heq⟩
  · exact .inl (by rw [heq])
  · exact .inr (.inl (by rw [heq, hmandatory, String.empty_append]))
  · exact .inl (by rw [heq, hmap, String.empty_append])
  · exact absurd hempty hop
  · exact .inr (.inr ⟨haddress, by rw [heq]⟩)
  · simp [heq] at h

theorem Legacy.not_overwrites {op : ByteOpcode} {component : String}
    (h : (step op component).2 = []) : ¬(ReadingStep.mk .legacy op component).Overwrites := by
  have hrule : (ReadingStep.mk .legacy op component).rule? =
      (action? op (.ofComponent component)).map Action.name := rfl
  cases haction : action? op (.ofComponent component) with
  | none => simp [ReadingStep.Overwrites, hrule, haction]
  | some action =>
      have hstep := step_of_action haction
      have hafter : (ReadingStep.mk .legacy op component).after = (action.apply op).1 :=
        congrArg Prod.fst hstep
      rw [hstep] at h
      rintro (⟨hname, hop, hkeeps⟩ | ⟨hname, hmodrm⟩)
      · cases action with
        | placeOpcode byte embeds =>
            let marked := { op with embedsRegister := op.embedsRegister || embeds }
            have hmarked : marked.opcode ≠ "" := hop
            refine hkeeps ?_
            rw [ReadingStep.KeepsOpcode, hafter]
            exact keepsOpcode_takeOpcode hmarked h
        | _ => simp [hrule, haction, Action.name] at hname
      · cases action with
        | setModrm field => exact hmodrm (modrm_eq_of_action haction)
        | _ => simp [hrule, haction, Action.name] at hname

/-! ### Opcodes with a vector prefix -/

namespace Vector

/-- No part of a prefix is an opcode byte or a ModRM field. -/
theorem not_overwrites_prefix (op : ByteOpcode) (component : String) :
    ¬(ReadingStep.mk .vectorPrefix op component).Overwrites := by
  have hrule : (ReadingStep.mk .vectorPrefix op component).rule? =
      (Part.ofComponent? component).map Part.name := rfl
  unfold ReadingStep.Overwrites
  rw [hrule]
  cases Part.ofComponent? component with
  | none => simp
  | some part => cases part <;> simp [Part.name]

/-- In the body every replaced byte is lost. -/
theorem overwrites_body_iff {op : ByteOpcode} (h : op.addressSizeOverride = false)
    (component : String) :
    (ReadingStep.mk .vectorBody op component).Overwrites ↔
      (ComponentSet.vectorBody.classify op component = some "opcode" ∧ op.opcode ≠ "") ∨
      (ComponentSet.vectorBody.classify op component = some "modrm" ∧ op.modrm ≠ "") := by
  refine or_congr_left (and_congr_right fun hrule => and_iff_left_of_imp fun hop => ?_)
  -- a kept byte would make the map or the prefix longer, and the body leaves both alone
  have hlonger (bytes : String) : bytes ≠ bytes ++ op.opcode := by
    intro heq
    have hlist := congrArg String.toList heq
    rw [String.toList_append, List.self_eq_append_right] at hlist
    exact hop (String.toList_eq_nil_iff.mp hlist)
  have hafter : (ReadingStep.mk .vectorBody op component).after = (bodyStep op component).1 := rfl
  rcases bodyStep_cases op component with ⟨_, _, _, hstep⟩ | ⟨_, _, hother, _⟩ |
    ⟨_, _, hother, _⟩ | ⟨hother, _⟩
  · rintro (hmap | hmandatory | ⟨_, haddress⟩)
    · rw [hafter, hstep] at hmap
      exact hlonger _ hmap
    · rw [hafter, hstep] at hmandatory
      exact hlonger _ hmandatory
    · rw [hafter, hstep] at haddress
      exact absurd haddress (by simp [h])
  all_goals
    have hrule' : ComponentSet.vectorBody.classify op component = some "opcode" := hrule
    simp [hother] at hrule'

/-- The number of components in the body of an opcode that do what `rule` names. -/
def bodyCount (rule text : String) : Nat :=
  (wordsOf text).tail.countP fun component =>
    ComponentSet.vectorBody.classify {} component = some rule

/-- A text of the opcode that only the components of one rule change, and that they
never leave empty, is found empty by all of them only if there is one at most. -/
theorem found_empty_iff (slot : ByteOpcode → String) {rule : String}
    (hfill : ∀ op component, ComponentSet.vectorBody.classify op component = some rule →
      slot (bodyStep op component).1 ≠ "")
    (hkeep : ∀ op component, ComponentSet.vectorBody.classify op component ≠ some rule →
      slot (bodyStep op component).1 = slot op)
    (op : ByteOpcode) (components : List String) :
    (∀ s ∈ ByteOpcode.stepsFrom .vectorBody op components,
        s.rule? = some rule → slot s.before = "") ↔
      (components.countP fun component =>
        ComponentSet.vectorBody.classify {} component = some rule) ≤
        if slot op = "" then 1 else 0 := by
  induction components generalizing op with
  | nil => simp [ByteOpcode.stepsFrom]
  | cons component components ih =>
      have hclass : (ReadingStep.mk .vectorBody op component).rule? =
          ComponentSet.vectorBody.classify {} component := rfl
      have hrest := ih (bodyStep op component).1
      simp only [ByteOpcode.stepsFrom, List.forall_mem_cons, hclass]
      change (_ ∧ ∀ s ∈ ByteOpcode.stepsFrom .vectorBody (bodyStep op component).1 components, _)
        ↔ _
      rw [hrest]
      by_cases hrule : ComponentSet.vectorBody.classify {} component = some rule
      · -- from here on the text is not empty, so no other component of the rule may follow
        rw [List.countP_cons_of_pos (by simpa using hrule), if_neg (hfill op component hrule)]
        by_cases hempty : slot op = "" <;> simp [hrule, hempty]
      · rw [List.countP_cons_of_neg (by simpa using hrule), hkeep op component hrule]
        simp [hrule]

theorem opcode_found_empty_iff (op : ByteOpcode) (components : List String) :
    (∀ s ∈ ByteOpcode.stepsFrom .vectorBody op components,
        s.rule? = some "opcode" → s.before.opcode = "") ↔
      (components.countP fun component =>
        ComponentSet.vectorBody.classify {} component = some "opcode") ≤
        if op.opcode = "" then 1 else 0 := by
  refine found_empty_iff ByteOpcode.opcode ?_ ?_ op components
  · intro op component hrule
    rcases bodyStep_cases op component with ⟨byte, hbyte, _, hstep⟩ | ⟨_, _, hother, _⟩ |
      ⟨_, _, hother, _⟩ | ⟨hother, _⟩
    · rw [hstep]
      exact byte?_ne_empty hbyte
    all_goals simp [hother] at hrule
  · intro op component hrule
    rcases bodyStep_cases op component with ⟨_, _, hsame, _⟩ | ⟨_, _, _, hstep⟩ |
      ⟨_, _, _, hstep⟩ | ⟨_, hstep⟩
    · exact absurd hsame hrule
    all_goals rw [hstep]

theorem modrm_found_empty_iff (op : ByteOpcode) (components : List String) :
    (∀ s ∈ ByteOpcode.stepsFrom .vectorBody op components,
        s.rule? = some "modrm" → s.before.modrm = "") ↔
      (components.countP fun component =>
        ComponentSet.vectorBody.classify {} component = some "modrm") ≤
        if op.modrm = "" then 1 else 0 := by
  refine found_empty_iff ByteOpcode.modrm ?_ ?_ op components
  · intro op component hrule
    rcases bodyStep_cases op component with ⟨_, _, hother, _⟩ | ⟨field, _, _, hstep⟩ |
      ⟨_, _, hother, _⟩ | ⟨hother, _⟩
    · simp [hother] at hrule
    · simp [hstep]
    all_goals simp [hother] at hrule
  · intro op component hrule
    rcases bodyStep_cases op component with ⟨_, _, _, hstep⟩ | ⟨_, _, hsame, _⟩ |
      ⟨_, _, _, hstep⟩ | ⟨_, hstep⟩
    · rw [hstep]
    · exact absurd hsame hrule
    all_goals rw [hstep]

/-- A body overwrites nothing just if it has no second byte and no second field. -/
theorem not_overwrites_body_iff {op : ByteOpcode} (h : Untouched op) (components : List String) :
    (∀ s ∈ ByteOpcode.stepsFrom .vectorBody op components, ¬s.Overwrites) ↔
      (components.countP fun component =>
        ComponentSet.vectorBody.classify {} component = some "opcode") ≤ 1 ∧
      (components.countP fun component =>
        ComponentSet.vectorBody.classify {} component = some "modrm") ≤ 1 := by
  have hopcode := opcode_found_empty_iff op components
  have hmodrm := modrm_found_empty_iff op components
  rw [if_pos h.opcode] at hopcode
  rw [if_pos h.modrm] at hmodrm
  rw [← hopcode, ← hmodrm, ← forall₂_and]
  refine forall₂_congr fun s hs => ?_
  have hbefore : s.before.addressSizeOverride = false := by
    refine ByteOpcode.before_of_mem_stepsFrom (P := fun op => op.addressSizeOverride = false)
      ?_ h.addressSizeOverride hs
    intro op component hop
    rcases bodyStep_cases op component with ⟨_, _, _, hstep⟩ | ⟨_, _, _, hstep⟩ |
      ⟨_, _, _, hstep⟩ | ⟨_, hstep⟩
    all_goals exact (congrArg (·.1.addressSizeOverride) hstep).trans hop
  obtain ⟨set, before, component⟩ := s
  obtain rfl : set = .vectorBody := ByteOpcode.set_of_mem_stepsFrom hs
  rw [overwrites_body_iff hbefore]
  simp only [not_or, not_and, not_not]
  rfl

end Vector

namespace ByteOpcode

/-- An opcode that is read without a report overwrites no opcode byte and no ModRM
field, unless it has a vector prefix and more than one of either in its body. -/
theorem not_overwrites_iff {text : String} (h : (read text).2 = []) :
    (∀ s ∈ steps text, ¬s.Overwrites) ↔
      (Vector.isPrefixed text = true →
        Vector.bodyCount "opcode" text ≤ 1 ∧ Vector.bodyCount "modrm" text ≤ 1) := by
  cases hprefixed : Vector.isPrefixed text with
  | false =>
      refine iff_of_true ?_ (by simp)
      intro s hs
      have hreports := reports_eq_nil h hs
      have hset : s.set = .legacy := by
        simp only [steps, hprefixed, Bool.false_eq_true, if_false] at hs
        exact set_of_mem_stepsFrom hs
      obtain ⟨set, before, component⟩ := s
      obtain rfl : set = .legacy := hset
      exact Legacy.not_overwrites hreports
  | true =>
      simp only [true_imp_iff]
      unfold steps Vector.bodyCount
      rw [if_pos hprefixed]
      cases wordsOf text with
      | nil => simp
      | cons first body =>
          rw [List.tail_cons, ← Vector.not_overwrites_body_iff (Vector.untouched_prefix text first)]
          simp only [List.mem_append, or_imp, forall_and]
          refine and_iff_right ?_
          intro s hs
          obtain ⟨set, before, component⟩ := s
          obtain rfl : set = .vectorPrefix := set_of_mem_stepsFrom hs
          exact Vector.not_overwrites_prefix before component

theorem not_overwrites_iff_wait_escape :
    (read "9B DF E0").2 = [] ∧
      ((∀ s ∈ steps "9B DF E0", ¬s.Overwrites) ↔
        (Vector.isPrefixed "9B DF E0" = true →
          Vector.bodyCount "opcode" "9B DF E0" ≤ 1 ∧ Vector.bodyCount "modrm" "9B DF E0" ≤ 1)) :=
  ⟨by decide, not_overwrites_iff (by decide)⟩

/-- Behind a vector prefix a second opcode byte is not reported, and the first is lost. -/
theorem second_vector_byte_overwrites :
    (read "VEX.128.66.0F38.W0 01 02 /r").2 = [] ∧
      (read "VEX.128.66.0F38.W0 01 02 /r").1.opcode = "02" ∧
      ∃ s ∈ steps "VEX.128.66.0F38.W0 01 02 /r", s.before.opcode = "01" ∧ s.Overwrites := by
  decide +kernel

end ByteOpcode

end InstrTable
