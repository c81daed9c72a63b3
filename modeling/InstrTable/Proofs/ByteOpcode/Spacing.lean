import InstrTable.Proofs.ByteOpcode.Rearrangement
import InstrTable.Proofs.ByteOpcode.WellFormed

/-!
Opcodes and the blanks of their texts. Components are the words of a text, but whether it has a
vector prefix is told by its first characters. So texts with the same words are read alike, unless
the first word has a vector prefix and a blank stands in front of it in one of them only.
-/

namespace InstrTable

/-- Whether a text begins with a blank. -/
def beginsBlank (text : String) : Bool := text.toList.head?.any Text.isBlank

/-- Whether the first word of a text has a vector prefix. -/
def Vector.opensPrefixed (text : String) : Bool := (wordsOf text).head?.any isPrefixed

namespace Vector

/-- A blank ends what a text is looked at for. -/
theorem isPrefixed_append_blank {b : Char} (h : Text.isBlank b = true) (cs rest : List Char) :
    isPrefixed (String.ofList (cs ++ b :: rest)) = isPrefixed (String.ofList cs) := by
  have hstarts : ∀ start ∈ ["VEX.", "XOP.", "EVEX."], b ∉ start.toList := by
    have hwords : ∀ start ∈ ["VEX.", "XOP.", "EVEX."], Text.isWord start.toList = true := by decide
    intro start hstart hb
    have hnot := (Text.isWord_iff.mp (hwords start hstart)).2 b hb
    simp [h] at hnot
  simp only [List.mem_cons, List.not_mem_nil, or_false, forall_eq_or_imp, forall_eq] at hstarts
  simp only [isPrefixed, String.toList_ofList, List.any_cons, List.any_nil,
    Text.isSome_after?_append hstarts.1, Text.isSome_after?_append hstarts.2.1,
    Text.isSome_after?_append hstarts.2.2]

/-- A text has a vector prefix where its first word has one and no blank stands in front. -/
theorem isPrefixed_iff {text : String} :
    isPrefixed text = true ↔ beginsBlank text = false ∧ opensPrefixed text = true := by
  cases hcs : text.toList with
  | nil =>
      have hempty : text = "" := by simpa using hcs
      subst hempty
      decide
  | cons c cs =>
      cases hc : Text.isBlank c with
      | true =>
          have hnot : isPrefixed text = isPrefixed "" := by
            simpa [← hcs] using isPrefixed_append_blank hc [] cs
          have hempty : isPrefixed "" = false := by decide
          simp [hnot, hempty, beginsBlank, hcs, hc]
      | false =>
          obtain ⟨word, rest, htext, hrest, hwords⟩ := Text.exists_words_cons hc cs
          have hfirst : isPrefixed text = isPrefixed (String.ofList word) := by
            rw [← String.ofList_toList (s := text), hcs, htext]
            cases rest with
            | nil => rw [List.append_nil]
            | cons b rest => exact isPrefixed_append_blank (hrest b rfl) word rest
          simp [hfirst, beginsBlank, opensPrefixed, wordsOf, hcs, hc, hwords]

end Vector

/-! ### Opcodes with different texts -/

namespace ByteOpcode

variable {op op' : ByteOpcode}

theorem share_eq (h : { op with text := "" } = { op' with text := "" }) (k : ComponentClass) :
    op.share k = op'.share k := by
  have hshare (op : ByteOpcode) : op.share k = { op with text := "" }.share k := by
    cases k <;> rfl
  rw [hshare op, hshare op', h]

/-- A component does the same to opcodes that differ in their texts alone, and is reported for
both or for none. -/
theorem step_congr (set : ComponentSet) (h : { op with text := "" } = { op' with text := "" })
    (component : String) :
    { (set.step op component).1 with text := "" } =
        { (set.step op' component).1 with text := "" } ∧
      (set.step op component).2.length = (set.step op' component).2.length := by
  cases set with
  | legacy =>
      have hshare := share_eq h
      constructor
      · refine eq_of_share_eq fun k => ?_
        by_cases hk : (Legacy.Token.ofComponent component).componentClass = k
        · rw [ComponentSet.step, (Legacy.share_step hk op).1, (Legacy.share_step hk op').1, hshare]
        · rw [ComponentSet.step, Legacy.share_step_of_ne hk, Legacy.share_step_of_ne hk, hshare]
      · rw [ComponentSet.step, (Legacy.share_step rfl op).2, (Legacy.share_step rfl op').2, hshare]
  | vectorPrefix =>
      simp only [ComponentSet.step, Vector.partStep]
      cases Vector.Part.ofComponent? component with
      | none => exact ⟨h, rfl⟩
      | some part =>
          have happly (op : ByteOpcode) :
              { part.apply op with text := "" } = part.apply { op with text := "" } := by
            cases part <;> rfl
          exact ⟨by rw [happly op, happly op', h], rfl⟩
  | vectorBody =>
      simp only [ComponentSet.step, Vector.bodyStep]
      cases Vector.Token.ofComponent? component with
      | none => exact ⟨h, rfl⟩
      | some token =>
          have happly (op : ByteOpcode) :
              { token.apply op with text := "" } = token.apply { op with text := "" } := by
            cases token <;> rfl
          exact ⟨by rw [happly op, happly op', h], rfl⟩

theorem run_congr (set : ComponentSet) (h : { op with text := "" } = { op' with text := "" })
    (components : List String) :
    { (run set.step op components).1 with text := "" } =
        { (run set.step op' components).1 with text := "" } ∧
      (run set.step op components).2.length = (run set.step op' components).2.length := by
  induction components generalizing op op' with
  | nil => exact ⟨h, rfl⟩
  | cons component components ih =>
      obtain ⟨hstep, hreports⟩ := step_congr set h component
      obtain ⟨hrest, hlength⟩ := ih hstep
      rw [run_cons, run_cons]
      exact ⟨hrest, by rw [List.length_append, List.length_append, hreports, hlength]⟩

/-- Texts with the same words, both with a vector prefix or both without, have components that
are read alike. -/
theorem readComponents_congr {s t : String} (hwords : wordsOf s = wordsOf t)
    (hprefixed : Vector.isPrefixed s = Vector.isPrefixed t) :
    { (readComponents s).1 with text := "" } = { (readComponents t).1 with text := "" } ∧
      (readComponents s).2.length = (readComponents t).2.length := by
  have hstart : { ({ text := s } : ByteOpcode) with text := "" } =
      { ({ text := t } : ByteOpcode) with text := "" } := rfl
  unfold readComponents
  rw [hwords, hprefixed]
  split
  · cases wordsOf t with
    | nil => exact ⟨rfl, rfl⟩
    | cons first body =>
        obtain ⟨hparts, hreports⟩ := run_congr .vectorPrefix hstart (piecesOf '.' first)
        obtain ⟨hbody, hreports'⟩ := run_congr .vectorBody hparts body
        exact ⟨hbody, by simp only [List.length_append]; exact congrArg₂ _ hreports hreports'⟩
  · exact run_congr .legacy hstart (wordsOf t)

/-- Opcodes whose components are read alike are settled alike, and a missing opcode byte is
reported for both or for none. -/
theorem read_congr {s t : String}
    (h : { (readComponents s).1 with text := "" } = { (readComponents t).1 with text := "" })
    (hreports : (readComponents s).2.length = (readComponents t).2.length) :
    { (read s).1 with text := "" } = { (read t).1 with text := "" } ∧
      (read s).2.length = (read t).2.length := by
  have hsettled : { (readComponents s).1.settle with text := "" } =
      { (readComponents t).1.settle with text := "" } := by
    rw [settle_text, settle_text, h]
  have hopcode : (readComponents s).1.settle.opcode = (readComponents t).1.settle.opcode := by
    simpa using congrArg ByteOpcode.opcode hsettled
  refine ⟨hsettled, ?_⟩
  simp only [read, List.length_append, hreports, hopcode]
  split
  · rfl
  · rfl

/-- An opcode has a vector prefix class just if its text has a vector prefix. -/
theorem isVector_read (text : String) :
    (read text).1.prefixClass.isVector = Vector.isPrefixed text := by
  cases h : Vector.isPrefixed text with
  | true =>
      have hclass := (Vector.WellFormed.read h).prefixClass
      have hall : ∀ p ∈ [.vex, .xop, .evex], PrefixClass.isVector p = true := by decide
      exact hall _ hclass
  | false =>
      have hclass := (Legacy.WellFormed.read h).prefixClass
      have hall : ∀ p ∈ [.none, .threeDNow, .fpu], PrefixClass.isVector p = false := by decide
      exact hall _ hclass

/-- Texts with the same words are read alike, whatever blanks stand between and around them, if
their first word has no vector prefix, or if both of them begin with it or neither does. A vector
prefix behind a blank is not seen. -/
theorem read_spaced_iff {s t : String} (h : wordsOf s = wordsOf t) :
    ({ (read s).1 with text := "" } = { (read t).1 with text := "" } ∧
        (read s).2.length = (read t).2.length) ↔
      (Vector.opensPrefixed s = true → beginsBlank s = beginsBlank t) := by
  have hopens : Vector.opensPrefixed s = Vector.opensPrefixed t := by
    rw [Vector.opensPrefixed, h, ← Vector.opensPrefixed]
  have hsame : Vector.isPrefixed s = Vector.isPrefixed t ↔
      (Vector.opensPrefixed s = true → beginsBlank s = beginsBlank t) := by
    rw [Bool.eq_iff_iff, Vector.isPrefixed_iff, Vector.isPrefixed_iff, ← hopens]
    cases Vector.opensPrefixed s <;> cases beginsBlank s <;> cases beginsBlank t <;> decide
  rw [← hsame]
  constructor
  · rintro ⟨hread, -⟩
    have hclass : (read s).1.prefixClass = (read t).1.prefixClass := by
      simpa using congrArg ByteOpcode.prefixClass hread
    rw [← isVector_read, ← isVector_read, hclass]
  · intro hprefixed
    obtain ⟨hcomponents, hreports⟩ := readComponents_congr h hprefixed
    exact read_congr hcomponents hreports

theorem read_spaced_iff_tabs :
    let s := "VEX.128.66.0F38.W0 01 /r"
    let t := "VEX.128.66.0F38.W0\t01 \u2003 /r \n"
    wordsOf s = wordsOf t ∧ { (read s).1 with text := "" } = { (read t).1 with text := "" } ∧
      (read s).2.length = (read t).2.length := by
  intro s t
  have hwords : wordsOf s = wordsOf t := by decide +kernel
  exact ⟨hwords, (read_spaced_iff hwords).mpr fun _ => by decide⟩

/-- A blank in front makes an opcode with a vector prefix a legacy one, to which the prefix is
not known. -/
theorem leading_blank_hides_prefix :
    let s := "VEX.128.66.0F38.W0 01 /r"
    let t := " VEX.128.66.0F38.W0 01 /r"
    wordsOf s = wordsOf t ∧ (read s).1.prefixClass = .vex ∧ (read s).2 = [] ∧
      (read t).1.prefixClass = .none ∧
      (read t).2 = [.unknownOpcodeComponent t "VEX.128.66.0F38.W0"] := by
  decide +kernel

end ByteOpcode

end InstrTable
