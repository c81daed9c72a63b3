import InstrTable.Proofs.ByteOpcode.Markers
import InstrTable.Proofs.Text.Words
import InstrTable.Record.Consistency

/-!
Opcodes that are read without a report. A component of such an opcode that begins like an
immediate is one, so that the immediates can be counted by their first letters, and the
opcode byte that is left is written with two digits.
-/

namespace InstrTable

/-- The first characters can be looked through one by one. -/
theorem Text.exists_ofNat_eq {c : Char} {bound : Nat} (h : c.toNat < bound) :
    ∃ n : Fin bound, Char.ofNat n = c :=
  ⟨⟨c.toNat, h⟩, Char.ofNat_toNat c⟩

namespace ByteOpcode

/-- The components that are immediates of an operand. -/
def immediateWords : List String := ["ib", "iw", "id", "iq"]

/-- The bits of a component that is an immediate of an operand, or names a register. -/
def immediateBits (component : String) : Nat :=
  if component ∈ immediateWords ∨ component = "/is4" then (immediateSize? component).getD 0 else 0

/-- Two upper-case hexadecimal digits. -/
def IsByte (s : String) : Prop :=
  s.length = 2 ∧ ∀ c ∈ s.toList, Legacy.Token.isHexDigit c = true

/-- What components that are not reported do to the opcode byte, and how those of them are spelled
that begin like an immediate. -/
structure Takes (op : ByteOpcode) (components : List String) (op' : ByteOpcode) : Prop where
  opcode : op'.opcode = op.opcode ∨ IsByte op'.opcode
  isImmediate : ∀ component ∈ components,
    Record.beginsImmediate component = true → component ∈ immediateWords

theorem Takes.single {op op' : ByteOpcode} {component : String}
    (hopcode : op'.opcode = op.opcode ∨ IsByte op'.opcode)
    (himmediate : Record.beginsImmediate component = true → component ∈ immediateWords) :
    Takes op [component] op' :=
  ⟨hopcode, by simpa using himmediate⟩

theorem Takes.append {op op₁ op₂ : ByteOpcode} {xs ys : List String} (h : Takes op xs op₁)
    (h' : Takes op₁ ys op₂) : Takes op (xs ++ ys) op₂ where
  opcode := by
    rcases h'.opcode with heq | hbyte
    · rw [heq]
      exact h.opcode
    · exact .inr hbyte
  isImmediate := List.forall_mem_append.mpr ⟨h.isImmediate, h'.isImmediate⟩

theorem takes_run {step : ByteOpcode → String → ByteOpcode × List Diagnostic}
    (hstep : ∀ op component, (step op component).2 = [] →
      Takes op [component] (step op component).1)
    {op : ByteOpcode} {components : List String} (h : (run step op components).2 = []) :
    Takes op components (run step op components).1 := by
  induction components generalizing op with
  | nil => exact ⟨.inl rfl, by simp⟩
  | cons component components ih =>
      rw [run_cons, List.append_eq_nil_iff] at h
      rw [run_cons]
      exact (hstep op component h.1).append (ih h.2)

/-- A component that begins like an immediate begins with the letter i. -/
theorem exists_toList_of_beginsImmediate {component : String}
    (h : Record.beginsImmediate component = true) : ∃ cs, component.toList = 'i' :: cs := by
  unfold Record.beginsImmediate at h
  split at h
  · next cs heq => exact ⟨_, heq⟩
  · contradiction

theorem letter_ne_newline : 'i' ≠ '\n' := by decide

/-- A component that begins with the letter i is no ModRM field. -/
theorem modrmComponent?_eq_none {component : String} {cs : List Char}
    (h : component.toList = 'i' :: cs) : modrmComponent? component = none := by
  obtain ⟨rest, hrest⟩ := Text.exists_dropFinalNewline_cons letter_ne_newline cs
  unfold modrmComponent?
  rw [h, hrest]
  split
  · next heq => simp at heq
  · rfl

end ByteOpcode

open ByteOpcode

namespace Legacy

theorem isByte_of_byte? {component digits suffix : String}
    (h : Token.byte? component = some (digits, suffix)) : IsByte digits := by
  unfold Token.byte? at h
  split at h
  · next c d rest heq =>
    simp only [Option.ite_none_right_eq_some, Option.some.injEq, Prod.mk.injEq,
      Bool.and_eq_true] at h
    obtain ⟨⟨⟨hc, hd⟩, -⟩, rfl, -⟩ := h
    exact ⟨by simp, by simp [hc, hd]⟩
  · contradiction

/-- A component that begins like an immediate and is none is not known to legacy opcodes. -/
theorem ofComponent_eq_other {component : String} (hwords : component ∉ immediateWords)
    (hbegins : Record.beginsImmediate component = true) :
    Token.ofComponent component = .other component := by
  obtain ⟨cs, hcs⟩ := exists_toList_of_beginsImmediate hbegins
  have hrex : component ≠ "REX.W" := by
    rintro rfl
    simp at hcs
  have hbyte : Token.byte? component = none := by
    unfold Token.byte?
    rw [hcs]
    cases cs with
    | nil => rfl
    | cons d cs => simp [Token.isHexDigit]
  have himmediate : Token.immediate? component = none := if_neg hwords
  have hdisplacement : displacementSize? component = none := by
    unfold displacementSize?
    split
    · simp at hcs
    · simp at hcs
    · rfl
  simp [Token.ofComponent, hrex, hbyte, modrmComponent?_eq_none hcs, himmediate, hdisplacement]

/-- The byte that is placed as the opcode is the one that is written. -/
theorem isByte_of_action {op : ByteOpcode} {component byte : String} {embeds : Bool}
    (h : action? op (.ofComponent component) = some (.placeOpcode byte embeds)) : IsByte byte := by
  cases htoken : Token.ofComponent component with
  | byte digits suffix =>
      have hbyte : Token.byte? component = some (digits, suffix) := by
        unfold Token.ofComponent at htoken
        grind
      rw [htoken] at h
      simp only [action?] at h
      obtain rfl : digits = byte := by split_ifs at h <;> simp_all
      exact isByte_of_byte? hbyte
  | modrm | displacement =>
      rw [htoken] at h
      simp only [action?] at h
      split_ifs at h
      simp at h
  | rexW | immediate | other =>
      rw [htoken] at h
      simp [action?] at h

/-- A legacy component that is not reported. -/
theorem takes_step {op : ByteOpcode} {component : String} (h : (step op component).2 = []) :
    Takes op [component] (step op component).1 := by
  cases haction : action? op (.ofComponent component) with
  | none => simp [step, haction] at h
  | some action =>
      have himmediate : Record.beginsImmediate component = true → component ∈ immediateWords := by
        intro hbegins
        by_contra hwords
        simp [ofComponent_eq_other hwords hbegins, action?] at haction
      refine .single ?_ himmediate
      rw [step_of_action haction]
      cases action with
      | placeOpcode byte embeds =>
          rw [Action.apply, (takeOpcode_eq _ byte).1]
          exact .inr (isByte_of_action haction)
      | _ => exact .inl rfl

end Legacy

namespace Vector

theorem isHexDigit_toUpper {c : Char} (h : (hexDigit? c).isSome = true) :
    Legacy.Token.isHexDigit c.toUpper = true := by
  have hsmall : c.toNat < 128 := by
    simp only [hexDigit?, Char.le_def, UInt32.le_iff_toNat_le] at h
    simp only [Char.toNat]
    split_ifs at h with hdigit hupper hlower
    · exact Nat.lt_of_le_of_lt hdigit.2 (by decide)
    · exact Nat.lt_of_le_of_lt hupper.2 (by decide)
    · exact Nat.lt_of_le_of_lt hlower.2 (by decide)
    · simp at h
  have hall : ∀ n : Fin 128, (hexDigit? (Char.ofNat n)).isSome = true →
      Legacy.Token.isHexDigit (Char.ofNat n).toUpper = true := by decide
  obtain ⟨n, rfl⟩ := Text.exists_ofNat_eq hsmall
  exact hall n h

theorem isByte_of_byte? {component byte : String} (h : Token.byte? component = some byte) :
    IsByte byte := by
  unfold Token.byte? at h
  split at h
  · next c d heq =>
    simp only [Option.ite_none_right_eq_some, Option.some.injEq, Bool.and_eq_true] at h
    obtain ⟨⟨hc, hd⟩, rfl⟩ := h
    exact ⟨by simp, by simp [isHexDigit_toUpper hc, isHexDigit_toUpper hd]⟩
  · contradiction

/-- A component that is a byte or a ModRM field does not begin like an immediate. -/
theorem not_immediate {component : String}
    (h : Token.byte? component ≠ none ∨ modrmComponent? component ≠ none) :
    Record.beginsImmediate component = false := by
  refine Bool.eq_false_iff.mpr fun hbegins => ?_
  obtain ⟨cs, hcs⟩ := exists_toList_of_beginsImmediate hbegins
  obtain ⟨rest, hrest⟩ := Text.exists_dropFinalNewline_cons letter_ne_newline cs
  have hbyte : Token.byte? component = none := by
    unfold Token.byte?
    rw [hcs, hrest]
    split
    · next heq =>
      obtain ⟨rfl, -⟩ := List.cons.inj heq
      rfl
    · rfl
  exact h.elim (absurd hbyte) (absurd (modrmComponent?_eq_none hcs))

/-- A component behind a vector prefix that is not reported. -/
theorem takes_bodyStep {op : ByteOpcode} {component : String}
    (h : (bodyStep op component).2 = []) : Takes op [component] (bodyStep op component).1 := by
  rcases bodyStep_cases op component with ⟨byte, hbyte, -, hstep⟩ | ⟨field, hmodrm, -, hstep⟩ |
    ⟨bits, himmediate, -, hstep⟩ | ⟨-, hstep⟩
  · have hbegins := not_immediate (.inl (hbyte ▸ Option.some_ne_none byte))
    rw [hstep]
    exact .single (.inr (isByte_of_byte? hbyte)) (by simp [hbegins])
  · have hbegins := not_immediate (.inr (hmodrm ▸ Option.some_ne_none field))
    rw [hstep]
    exact .single (.inl rfl) (by simp [hbegins])
  · have hall : ∀ word ∈ ["ib", "iw", "id", "iq", "/is4"],
        Record.beginsImmediate word = true → word ∈ immediateWords := by decide
    unfold Token.immediate? at himmediate
    split_ifs at himmediate with hmem
    rw [hstep]
    exact .single (.inl rfl) (hall component hmem)
  · simp [hstep] at h

/-- The word that holds a vector prefix does not begin like an immediate. -/
theorem prefix_not_immediate {text first : String} {body : List String}
    (hprefixed : isPrefixed text = true) (hwords : wordsOf text = first :: body) :
    Record.beginsImmediate first = false := by
  obtain ⟨name, hname, rest, ws, hcons⟩ := exists_wordsOf_prefixed hprefixed
  obtain ⟨rfl, -⟩ := List.cons.inj (hwords.symm.trans hcons)
  refine Bool.eq_false_iff.mpr fun hbegins => ?_
  obtain ⟨cs, hcs⟩ := exists_toList_of_beginsImmediate hbegins
  rw [String.toList_ofList] at hcs
  simp only [List.mem_cons, List.not_mem_nil, or_false] at hname
  rcases hname with rfl | rfl | rfl <;> simp at hcs

/-- The parts of a prefix leave the opcode byte alone. -/
theorem takes_prefix {text first : String} {body : List String}
    (hprefixed : isPrefixed text = true) (hwords : wordsOf text = first :: body) :
    Takes { text } [first] (run partStep { text } (piecesOf '.' first)).1 := by
  have hkeeps : (run partStep { text } (piecesOf '.' first)).1.opcode = "" := by
    refine run_keeps (P := fun op => op.opcode = "") partStep ?_ rfl _
    intro op component h
    unfold partStep
    cases Part.ofComponent? component with
    | none => exact h
    | some part => cases part <;> exact h
  exact .single (.inl hkeeps) (by simp [prefix_not_immediate hprefixed hwords])

end Vector

namespace ByteOpcode

theorem takes_readComponents {text : String} (h : (readComponents text).2 = []) :
    Takes { text } (wordsOf text) (readComponents text).1 := by
  unfold readComponents at h ⊢
  split at h
  · next hprefixed =>
    rw [if_pos hprefixed]
    cases hwords : wordsOf text with
    | nil => exact ⟨.inl rfl, by simp⟩
    | cons first body =>
        simp only [hwords, List.append_eq_nil_iff] at h
        exact (Vector.takes_prefix hprefixed hwords).append
          (takes_run (fun _ _ => Vector.takes_bodyStep) h.2)
  · next hprefixed =>
    rw [if_neg hprefixed]
    exact takes_run (fun _ _ => Legacy.takes_step) h

/-- Where nothing is reported, each word adds the bits that the operands are held against. -/
theorem bitsOf_eq_immediateBits {text word : String} (h : (read text).2 = [])
    (hword : word ∈ wordsOf text) :
    bitsOf (bodySet (Vector.isPrefixed text)).markers word = immediateBits word := by
  by_cases hmarker : IsMarker (bodySet (Vector.isPrefixed text)).markers word
  · have hall : ∀ prefixed, ∀ word ∈ (bodySet prefixed).markers.map Prod.fst,
        bitsOf (bodySet prefixed).markers word = immediateBits word := by decide
    exact hall _ word hmarker
  · have hnot : ¬(word ∈ immediateWords ∨ word = "/is4") := by
      have hread : ∀ prefixed, ∀ word ∈ immediateWords,
          IsMarker (bodySet prefixed).markers word := by decide
      rintro (hmem | rfl)
      · exact hmarker (hread _ word hmem)
      · have hreported := (mem_read_iff (by decide)).mpr ⟨hword, hmarker⟩
        simp [h] at hreported
    rw [bitsOf_eq_zero hmarker, immediateBits, if_neg hnot]

/-- An opcode that is read without a report has an opcode byte, and its immediates are the
components that begin like one. -/
theorem read_clean {text : String} (h : (read text).2 = []) :
    IsByte (read text).1.opcode ∧
      (read text).1.immediateWidth = ((wordsOf text).map immediateBits).sum ∧
      ∀ word ∈ wordsOf text, Record.beginsImmediate word = true → word ∈ immediateWords := by
  have hwidth : (read text).1.immediateWidth = ((wordsOf text).map immediateBits).sum := by
    rw [immediateWidth_read, totalBits,
      List.map_congr_left fun word hword => bitsOf_eq_immediateBits h hword]
  simp only [read, List.append_eq_nil_iff] at h
  obtain ⟨hcomponents, hsome⟩ := h
  have htakes := takes_readComponents hcomponents
  refine ⟨?_, hwidth, htakes.isImmediate⟩
  have hne : (readComponents text).1.settle.opcode ≠ "" := by
    intro hempty
    simp [hempty] at hsome
  rcases (settle_eq (readComponents text).1).1 with heq | heq
  · rw [heq] at hne
    have hbyte := htakes.opcode.resolve_left hne
    rwa [← heq] at hbyte
  · have hopcode : (read text).1.opcode = "01" := heq
    rw [hopcode]
    exact ⟨rfl, by simp [Legacy.Token.isHexDigit]⟩

end ByteOpcode

end InstrTable
