import InstrTable.Record.Reader

/-!
How a record comes from its parts. The operands are read first and the opcode after them, and
each of them may be an error. What is assembled of the two is always a record.
-/

namespace InstrTable

namespace BitTemplate

variable [Capacity] {text encoding : String}

/-- A template whose fixed bits fit is the one that the text describes. -/
theorem build_eq_ok_iff {t : BitTemplate} {ds : List Diagnostic} :
    build text encoding = (.ok t, ds) ↔
      read text encoding = (t, ds) ∧ t.fields.all BitField.fits = true := by
  unfold build
  rcases read text encoding with ⟨t', ds'⟩
  simp only [Prod.mk.injEq]
  split
  · next hfits =>
    simp only [Prod.mk.injEq, Except.ok.injEq]
    refine ⟨fun h => ⟨h, h.1 ▸ hfits⟩, And.left⟩
  · next hfits =>
    simp only [Prod.mk.injEq, reduceCtorEq, false_and, false_iff, not_and]
    rintro ⟨rfl, -⟩
    exact hfits

end BitTemplate

namespace Dialect

variable [Capacity] {text encoding : String} {opcode : Opcode} {ds : List Diagnostic}

@[simp] theorem readOpcode_x86 :
    readOpcode .x86 text encoding =
      (.ok (.bytes (ByteOpcode.read text).1), (ByteOpcode.read text).2) :=
  rfl

/-- An opcode of ARM is the template that its text describes. -/
theorem exists_of_readOpcode_arm (h : readOpcode .arm text encoding = (.ok opcode, ds)) :
    ∃ t, opcode = .bits t ∧ BitTemplate.read text encoding = (t, ds) := by
  unfold readOpcode at h
  rcases hbuild : BitTemplate.build text encoding with ⟨_ | t, ds'⟩
  · simp [hbuild, Except.map] at h
  · simp only [hbuild, Except.map, Prod.mk.injEq, Except.ok.injEq] at h
    obtain ⟨rfl, rfl⟩ := h
    exact ⟨t, rfl, (BitTemplate.build_eq_ok_iff.mp hbuild).1⟩

end Dialect

namespace Record

variable [Capacity] {d : Dictionaries} {entry : Entry} {aliasOf : String} {r : Record}
  {ds : Diagnostics}

/-- An instruction is read where its operands and its opcode are, and the record is assembled of
these. -/
theorem read_eq_ok_iff :
    read d entry aliasOf = (.ok r, ds) ↔
      ∃ parsed decorations opcode ds₀ ds₁,
        readOperands d entry.operands = (.ok (parsed, decorations), ds₀) ∧
        d.dialect.readOpcode entry.opcode (d.dialect.splitEncoding entry.encoding).1 =
          (.ok opcode, ds₁) ∧
        r = assemble d entry aliasOf parsed decorations opcode (ds₀ ++ ds₁) ∧
        ds = r.diagnostics := by
  unfold read
  rcases readOperands d entry.operands with ⟨_ | ⟨parsed, decorations⟩, ds₀⟩
  · simp
  · rcases d.dialect.readOpcode entry.opcode (d.dialect.splitEncoding entry.encoding).1 with
      ⟨_ | opcode, ds₁⟩
    · simp
    · simp only [Prod.mk.injEq, Except.ok.injEq]
      constructor
      · rintro ⟨rfl, rfl⟩
        exact ⟨parsed, decorations, opcode, ds₀, ds₁, ⟨⟨rfl, rfl⟩, rfl⟩, ⟨rfl, rfl⟩, rfl, rfl⟩
      · rintro ⟨_, _, _, _, _, ⟨⟨rfl, rfl⟩, rfl⟩, ⟨rfl, rfl⟩, rfl, rfl⟩
        exact ⟨rfl, rfl⟩

/-- A record about which something was found out by reading it. -/
theorem exists_of_map_toOption {α : Type} {f : Record → α} {x : α}
    (h : (read d entry aliasOf).1.toOption.map f = some x) :
    ∃ r ds, read d entry aliasOf = (.ok r, ds) ∧ f r = x := by
  cases hread : read d entry aliasOf with
  | mk result ds =>
      rw [hread] at h
      cases result with
      | error e => contradiction
      | ok r => exact ⟨r, ds, rfl, Option.some.inj h⟩

end Record

end InstrTable
