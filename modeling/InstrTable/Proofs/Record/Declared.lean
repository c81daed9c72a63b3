import InstrTable.Proofs.Record.Attributes

/-!
What the keys of a record refer to. Each of them was put there by an assignment, whose kind says
which dictionary declares its key. The attributes that only x86 has need no dictionary, and the
extension of short vectors is added to its base without a look at the dictionaries.
-/

namespace InstrTable

namespace Vocabulary

variable {v : Vocabulary} {a : Assignment}

/-- What an assignment that is made says of its key. -/
theorem Makes.declared (h : v.Makes a) :
    (a.kind = .architecture → v.dictionaries.isArchitecture a.key = true) ∧
      (a.kind = .specialRegister → v.dictionaries.specialRegisters.contains a.key = true) ∧
      (a.kind = .specific → ∃ k, v.x86Key? a.key a.value = some k) := by
  obtain ⟨m', hentered, -⟩ := entered_enter h {}
  cases hentered with
  | architecture _ declared => simp [declared]
  | register _ _ declared => simp [declared]
  | specific _ _ known => simp [known]
  | _ => simp

/-- Short vectors are asked for together with an extension that is declared. -/
theorem Makes.isExtension_of_shortVectors (h : v.Makes a) (hkind : a.kind = .specific)
    {base : String} (hvectors : X86Key.shortVectors? a.key = some base) :
    v.dictionaries.isExtension base = true := by
  obtain ⟨k, known⟩ := h.declared.2.2 hkind
  rcases x86Key?_cases known with ⟨extension, -, hfound, declared⟩ | hname
  · obtain rfl : extension = base := Option.some.inj (hfound.symm.trans hvectors)
    exact declared
  · have hnone := X86Key.shortVectors?_of_name? hname
    simp [hvectors] at hnone

/-- An assignment adds an extension that is declared, or that of short vectors. -/
theorem Makes.isExtension_of_adds (h : v.Makes a) {e : String} (hadds : v.Adds a e) :
    v.dictionaries.isExtension e = true ∨ e = "AVX512VL" := by
  rcases hadds with ⟨-, -, declared⟩ | ⟨hkind, base, hvectors, rfl | rfl⟩
  · exact .inl declared
  · exact .inl (h.isExtension_of_shortVectors hkind hvectors)
  · exact .inr rfl

/-! ### What the assignments of a record refer to -/

variable {log : List Assignment} {m : Metadata}

theorem Tells.arch_declared (h : v.Tells log m) (hmade : ∀ a ∈ log, v.Makes a)
    (hsome : m.arch ≠ "") : v.dictionaries.isArchitecture m.arch = true := by
  rw [h.arch_eq] at hsome ⊢
  cases hlast : lastWith (·.kind = .architecture) log with
  | none => simp [hlast] at hsome
  | some a =>
      obtain ⟨ha, hkind⟩ := List.mem_filter.mp (List.mem_of_getLast? hlast)
      exact (hmade a ha).declared.1 (of_decide_eq_true hkind)

theorem Tells.register_declared (h : v.Tells log m) (hmade : ∀ a ∈ log, v.Makes a)
    {name : String} (hname : name ∈ m.specialRegisters.keys) :
    v.dictionaries.specialRegisters.contains name = true := by
  obtain ⟨value, hvalue⟩ := Option.isSome_iff_exists.mp
    ((Keyed.contains_iff_mem_keys m.specialRegisters name).mpr hname)
  rw [h.specialRegisters_eq, Option.map_eq_some_iff] at hvalue
  obtain ⟨a, hlast, -⟩ := hvalue
  obtain ⟨ha, hspeaks⟩ := List.mem_filter.mp (List.mem_of_getLast? hlast)
  obtain ⟨hkind, rfl⟩ := of_decide_eq_true hspeaks
  exact (hmade a ha).declared.2.1 hkind

theorem Tells.extension_declared (h : v.Tells log m) (hmade : ∀ a ∈ log, v.Makes a) {e : String}
    (he : e ∈ m.extensions) : v.dictionaries.isExtension e = true ∨ e = "AVX512VL" := by
  obtain ⟨a, ha, hadds⟩ := (h.mem_extensions_iff e).mp he
  exact (hmade a ha).isExtension_of_adds hadds

/-- The extension of short vectors is the only one that may be undeclared, and is added wherever
a key asks for short vectors. -/
theorem Tells.extensions_declared_iff (h : v.Tells log m) (hmade : ∀ a ∈ log, v.Makes a) :
    (∀ e ∈ m.extensions, v.dictionaries.isExtension e = true) ↔
      v.dictionaries.isExtension "AVX512VL" = true ∨
        ∀ a ∈ log, a.kind = .specific → X86Key.shortVectors? a.key = none := by
  constructor
  · intro hall
    refine or_iff_not_imp_left.mpr fun hundeclared a ha hkind => ?_
    cases hbase : X86Key.shortVectors? a.key with
    | none => rfl
    | some base =>
        have hadded : "AVX512VL" ∈ m.extensions :=
          (h.mem_extensions_iff "AVX512VL").mpr ⟨a, ha, .inr ⟨hkind, base, hbase, .inr rfl⟩⟩
        exact absurd (hall "AVX512VL" hadded) hundeclared
  · rintro (hvectors | hnone) e he
    · exact (h.extension_declared hmade he).elim id fun heq => heq ▸ hvectors
    · obtain ⟨a, ha, hadds⟩ := (h.mem_extensions_iff e).mp he
      rcases hadds with ⟨-, -, declared⟩ | ⟨hkind, base, hbase, -⟩
      · exact declared
      · simp [hnone a ha hkind] at hbase

end Vocabulary

/-- A key that x86 has of its own writes no attribute but its own. -/
theorem mem_attributeNames_of_written? {name : String} {a : Assignment} {x : AttributeValue}
    (h : a.written? name = some x) : name ∈ X86Key.attributeNames := by
  obtain ⟨-, k, -, hmem⟩ := Assignment.written?_eq_some_iff.mp h
  have hflags : ∀ name ∈ X86Key.flagNames, name ∈ X86Key.attributeNames := by decide
  rcases X86Key.mem_writes_cases hmem with ⟨hflag, -⟩ | ⟨rfl, -⟩ | ⟨rfl, -⟩ | ⟨rfl, -⟩
  · exact hflags name hflag
  all_goals decide

/-- A record whose keys are declared, or are those of x86 that need no dictionary. -/
structure Record.Declared (d : Dictionaries) (r : Record) : Prop where
  arch : d.isArchitecture r.arch = true ∨ r.arch = d.dialect.defaultArch r.encoding
  specialRegisters : ∀ name ∈ r.metadata.specialRegisters.keys,
    d.specialRegisters.contains name = true
  attributes : ∀ name ∈ r.metadata.attributes.keys,
    d.attributes.contains name = true ∨ d.dialect = .x86 ∧ name ∈ X86Key.attributeNames
  extensions : ∀ e ∈ r.metadata.extensions, d.isExtension e = true ∨ e = "AVX512VL"

namespace Record

section Reading

variable [Capacity] {d : Dictionaries} {entry : Entry} {aliasOf : String} {r : Record}
  {ds : Diagnostics}

/-- An attribute that no dictionary declares is one of those that x86 has of its own. -/
theorem mem_attributeNames_of_read (h : read d entry aliasOf = (.ok r, ds)) {name : String}
    (hname : d.attributes.get? name = none) (hsome : (r.attribute? name).isSome = true) :
    d.dialect = .x86 ∧ name ∈ X86Key.attributeNames := by
  obtain ⟨-, hmade, hattribute⟩ := tells_of_read h
  obtain ⟨x, hx⟩ := Option.isSome_iff_exists.mp hsome
  rw [hattribute name hname, Option.or_eq_some_iff] at hx
  rcases hx with hlast | ⟨-, hdefault⟩
  · obtain ⟨a, ha, hwritten⟩ := exists_of_lastWritten? hlast
    have hkind := (Assignment.written?_eq_some_iff.mp hwritten).1
    obtain ⟨k, known⟩ := (hmade a ha).declared.2.2 hkind
    exact ⟨of_decide_eq_true (Vocabulary.knowsX86_of_x86Key? known),
      mem_attributeNames_of_written? hwritten⟩
  · obtain ⟨⟨hx86, rfl⟩, -⟩ := Option.ite_none_right_eq_some.mp hdefault
    exact ⟨of_decide_eq_true hx86, by decide⟩

/-- The keys of a record are declared, apart from the extension of short vectors: that is added
wherever some key asks for short vectors, declared or not. -/
theorem declared_of_read (h : read d entry aliasOf = (.ok r, ds)) :
    r.Declared d ∧
      ((∀ e ∈ r.metadata.extensions, d.isExtension e = true) ↔
        d.isExtension "AVX512VL" = true ∨
          ∀ a ∈ r.metadata.assignments, a.kind = .specific →
            X86Key.shortVectors? a.key = none) := by
  obtain ⟨-, -, harch⟩ := metadata_of_read h
  obtain ⟨htells, hmade, -⟩ := tells_of_read h
  refine ⟨?_, htells.extensions_declared_iff hmade⟩
  constructor
  case arch =>
    rw [harch]
    split
    · exact .inr rfl
    · next hsome => exact .inl (htells.arch_declared hmade hsome)
  case specialRegisters => exact fun _ => htells.register_declared hmade
  case attributes =>
    intro name hname
    have hsome := (Keyed.contains_iff_mem_keys r.metadata.attributes name).mpr hname
    cases hdeclared : d.attributes.get? name with
    | some a => exact .inl (Option.isSome_of_eq_some hdeclared)
    | none => exact .inr (mem_attributeNames_of_read h hdeclared hsome)
  case extensions => exact fun _ => htells.extension_declared hmade

end Reading

theorem declared_of_read_compare :
    let d : Dictionaries := {
      dialect := .x86
      architectures := ["ANY", "X64"]
      extensions := .ofList [("AVX512F", { name := "AVX512F" }),
        ("AVX512VL", { name := "AVX512VL" })]
      specialRegisters := .ofList [("MXCSR", ⟨"MXCSR", "MXCSR", ""⟩)]
      registers := .ofList [("k", ⟨.text "k", .text "mask", none⟩),
        ("xmm", ⟨.text "xmm", .text "vec", none⟩)] }
    let entry : Entry := ⟨"vcmppd", "W:k {k}, xmm, xmm/m128/b64, ib", "RVMI-FV",
      "EVEX.NDS.128.66.0F.W1 C2 /r ib", "X64 AVX512F-VL MXCSR=R"⟩
    ∃ r ds, read d entry "" = (.ok r, ds) ∧ r.metadata.extensions = ["AVX512F", "AVX512VL"] ∧
      r.Declared d ∧ ∀ e ∈ r.metadata.extensions, d.isExtension e = true := by
  intro d entry
  obtain ⟨r, ds, hread, hadded⟩ : ∃ r ds, read d entry "" = (.ok r, ds) ∧
      r.metadata.extensions = ["AVX512F", "AVX512VL"] :=
    exists_of_map_toOption (by decide +kernel)
  obtain ⟨hdeclared, hiff⟩ := declared_of_read hread
  exact ⟨r, ds, hread, hadded, hdeclared, hiff.mpr (.inl (by decide))⟩

/-- Short vectors are added to an extension although the dictionaries do not declare them. They
are not known where their own key is written. -/
theorem short_vectors_added_undeclared :
    let d : Dictionaries := {
      dialect := .x86
      extensions := .ofList [("AVX512F", { name := "AVX512F" })] }
    let v := Vocabulary.ofDialect d
    let asked := (read d ⟨"nop", "", "NONE", "90", "AVX512F-VL"⟩ "").1.toOption
    d.isExtension "AVX512VL" = false ∧
      asked.map (·.metadata.extensions) = some ["AVX512F", "AVX512VL"] ∧
      asked.map (·.invalid) = some 0 ∧
      (v.read "AVX512VL").2 = [.unknownFlag "AVX512VL" "True"] := by
  decide +kernel

end Record

end InstrTable
