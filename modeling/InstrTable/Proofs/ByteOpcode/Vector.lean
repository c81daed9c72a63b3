import InstrTable.Proofs.ByteOpcode.Run
import InstrTable.Proofs.Text.Words
import Mathlib.Tactic.SplitIfs

/-!
What a step over a component of a vector opcode can do. The parts of the prefix fill
the fields that the body leaves alone, and the other way round.
-/

namespace InstrTable

theorem Text.isSome_after?_append {front : List Char} {sep : Char} (h : sep ∉ front)
    (cs rest : List Char) :
    (after? front (cs ++ sep :: rest)).isSome = (after? front cs).isSome := by
  induction front generalizing cs with
  | nil => cases cs <;> rfl
  | cons f front ih =>
      have hf : f ≠ sep := Ne.symm (List.ne_of_not_mem_cons h)
      have hfront : sep ∉ front := List.not_mem_of_not_mem_cons h
      cases cs with
      | nil => simp [after?, hf]
      | cons c cs =>
          simp only [List.cons_append, after?]
          split
          · exact ih hfront cs
          · rfl

namespace Vector

/-- The first word of a text decides whether it has a vector prefix. -/
theorem isPrefixed_intercalate (w : String) (ws : List String) :
    isPrefixed (" ".intercalate (w :: ws)) = isPrefixed w := by
  cases ws with
  | nil => simp
  | cons v vs =>
      have hfirst : (" ".intercalate (w :: v :: vs)).toList =
          w.toList ++ ' ' :: [' '].intercalate ((v :: vs).map String.toList) := by
        rw [String.toList_intercalate, List.map_cons, List.map_cons, List.intercalate_cons_cons]
        simp
      unfold isPrefixed
      rw [hfirst]
      simp only [List.any_cons, List.any_nil]
      rw [Text.isSome_after?_append (by decide), Text.isSome_after?_append (by decide),
        Text.isSome_after?_append (by decide)]

theorem isPrefixed_eq_false {ws : List String} (h : ∀ w ∈ ws, isPrefixed w = false) :
    isPrefixed (" ".intercalate ws) = false := by
  cases ws with
  | nil => rfl
  | cons w ws =>
      rw [isPrefixed_intercalate]
      exact h w List.mem_cons_self

/-- The first word of a text with a vector prefix begins with the name of its class. -/
theorem exists_wordsOf_prefixed {text : String} (h : isPrefixed text = true) :
    ∃ name ∈ ["VEX", "XOP", "EVEX"], ∃ rest body,
      wordsOf text = String.ofList (name.toList ++ '.' :: rest) :: body := by
  obtain ⟨start, hstart, hafter⟩ := List.any_eq_true.mp h
  obtain ⟨cs, hcs⟩ := Option.isSome_iff_exists.mp hafter
  have hall : ∀ start ∈ ["VEX.", "XOP.", "EVEX."], ∃ name ∈ ["VEX", "XOP", "EVEX"],
      start.toList = name.toList ++ ['.'] ∧ Text.isWord start.toList = true := by decide
  obtain ⟨name, hname, hsplit, hword⟩ := hall start hstart
  obtain ⟨rest, ws, hcons⟩ := Text.exists_words_append hword cs
  refine ⟨name, hname, rest, ws.map String.ofList, ?_⟩
  rw [wordsOf, Text.after?_eq_some_iff.mp hcs, hcons, List.map_cons, hsplit, List.append_assoc,
    List.singleton_append]

theorem byte?_ne_empty {component byte : String} (h : Token.byte? component = some byte) :
    byte ≠ "" := by
  unfold Token.byte? at h
  split at h
  · split_ifs at h
    simp only [Option.some.injEq] at h
    simp [← h]
  · contradiction

/-- A component of the body is an opcode byte, a ModRM field, an immediate, or is
reported. -/
theorem bodyStep_cases (op : ByteOpcode) (component : String) :
    (∃ byte, Token.byte? component = some byte ∧
      ComponentSet.vectorBody.classify op component = some "opcode" ∧
      bodyStep op component = ({ op with opcode := byte }, [])) ∨
    (∃ field, modrmComponent? component = some field ∧
      ComponentSet.vectorBody.classify op component = some "modrm" ∧
      bodyStep op component = ({ op with modrm := field.toString }, [])) ∨
    (∃ bits, Token.immediate? component = some bits ∧
      ComponentSet.vectorBody.classify op component = some "immediate" ∧
      bodyStep op component = ({ op with immediateWidth := op.immediateWidth + bits }, [])) ∨
    (ComponentSet.vectorBody.classify op component = none ∧
      bodyStep op component = (op, [.unknownOpcodeComponent op.text component])) := by
  unfold bodyStep
  simp only [ComponentSet.classify]
  cases hbyte : Token.byte? component with
  | some byte =>
      have htoken : Token.ofComponent? component = some (.opcode byte) := by
        simp [Token.ofComponent?, hbyte]
      exact .inl ⟨byte, rfl, by simp [htoken, Token.name], by simp [htoken, Token.apply]⟩
  | none =>
      cases hmodrm : modrmComponent? component with
      | some field =>
          have htoken : Token.ofComponent? component = some (.modrm field) := by
            simp [Token.ofComponent?, hbyte, hmodrm]
          exact .inr (.inl ⟨field, rfl, by simp [htoken, Token.name],
            by simp [htoken, Token.apply]⟩)
      | none =>
          have htoken : Token.ofComponent? component =
              (Token.immediate? component).map .immediate := by
            simp [Token.ofComponent?, hbyte, hmodrm]
          cases himmediate : Token.immediate? component with
          | some bits =>
              rw [himmediate, Option.map_some] at htoken
              exact .inr (.inr (.inl ⟨bits, rfl, by simp [htoken, Token.name],
                by simp [htoken, Token.apply]⟩))
          | none =>
              rw [himmediate, Option.map_none] at htoken
              exact .inr (.inr (.inr ⟨by simp [htoken], by simp [htoken]⟩))

/-- Whether the body of an opcode has not said anything yet. -/
structure Untouched (op : ByteOpcode) : Prop where
  opcode : op.opcode = ""
  modrm : op.modrm = ""
  addressSizeOverride : op.addressSizeOverride = false

theorem Untouched.partStep {op : ByteOpcode} (h : Untouched op) (component : String) :
    Untouched (Vector.partStep op component).1 := by
  unfold Vector.partStep
  cases Part.ofComponent? component with
  | none => exact h
  | some part => cases part <;> exact ⟨h.opcode, h.modrm, h.addressSizeOverride⟩

/-- The opcode that a body starts from. -/
theorem untouched_prefix (text first : String) :
    Untouched (ByteOpcode.run partStep { text } (piecesOf '.' first)).1 := by
  have hstart : Untouched { text } := ⟨rfl, rfl, rfl⟩
  refine ByteOpcode.run_keeps (P := Untouched) partStep ?_ hstart _
  intro op component h
  exact h.partStep component

end Vector

end InstrTable
