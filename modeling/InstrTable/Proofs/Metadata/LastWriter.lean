import InstrTable.Proofs.Keyed
import InstrTable.Proofs.Metadata.Assignments

/-!
Metadata as its assignments tell it. Each part of the metadata is settled by some of the
assignments, and where two of them speak of the same thing, by the later one.
-/

namespace InstrTable

/-- The last assignment of a log for which `p` holds. -/
def lastWith (p : Assignment → Bool) (log : List Assignment) : Option Assignment :=
  (log.filter p).getLast?

theorem lastWith_concat (p : Assignment → Bool) (log : List Assignment) (a : Assignment) :
    lastWith p (log ++ [a]) = if p a then some a else lastWith p log := by
  unfold lastWith
  by_cases h : p a
  · simp [h]
  · simp [h]

/-- The text of a value. A key without a value says the word for a set flag. -/
def Setting.word : Setting → String
  | .set => "TRUE"
  | .text s => s

/-- A value as an attribute of some kind holds it: whether it is the word for a set flag,
the text itself, or the texts between its bars. -/
def AttributeValue.coerced (kind : AttributeKind) (value : Setting) : AttributeValue :=
  match kind with
  | .flag => .flag (isTrue value.word)
  | .text => .text value.word
  | .texts => .texts (piecesOf '|' value.word)

theorem AttributeValue.ofKind_eq_coerced (kind : AttributeKind) (value : Setting) :
    ofKind kind value = coerced kind value := by
  have hflag : isTrue "TRUE" = true := by decide
  have htexts : piecesOf '|' "TRUE" = ["TRUE"] := by decide
  cases kind <;> cases value <;> simp [ofKind, coerced, Setting.word, hflag, htexts]

theorem Metadata.mem_addExtension (m : Metadata) (name e : String) :
    e ∈ (m.addExtension name).extensions ↔ e = name ∨ e ∈ m.extensions := by
  rw [addExtension_eq]
  by_cases h : name ∈ m.extensions
  · rw [if_pos h]
    exact ⟨.inr, fun he => he.elim (fun hname => hname ▸ h) id⟩
  · simp [h, or_comm]

namespace X86Key

/-- The attributes that only x86 has. -/
def attributeNames : List String :=
  ["FPU", "FPU_TOP", "k", "kz", "er", "sae", "PRIVILEGE", "broadcast"]

/-- A key of x86 leaves all other attributes alone. -/
theorem get?_apply (m : Metadata) (value : Setting) (k : X86Key) {name : String}
    (h : name ∉ attributeNames) :
    (k.apply m value).attributes.get? name = m.attributes.get? name := by
  simp only [attributeNames, List.mem_cons, List.not_mem_nil, or_false, not_or] at h
  cases k with
  | vectorLengths extension => simp only [apply, Metadata.addExtension_eq]
  | pop =>
      simp only [apply]
      split <;> simp [Metadata.setAttribute, h]
  | _ => simp [apply, Metadata.setAttribute, h]

theorem shortVectors?_of_name? {k : X86Key} {key : String} (h : k.name? = some key) :
    shortVectors? key = none := by
  cases k <;> simp only [name?, Option.some.injEq, reduceCtorEq] at h <;> subst h
  all_goals decide

/-- The extensions that a key of x86 adds. -/
theorem mem_extensions_apply (m : Metadata) (value : Setting) (k : X86Key) (e : String) :
    e ∈ (k.apply m value).extensions ↔
      e ∈ m.extensions ∨ ∃ base, k = .vectorLengths base ∧ (e = base ∨ e = "AVX512VL") := by
  cases k with
  | vectorLengths extension =>
      rw [apply, Metadata.mem_addExtension, Metadata.mem_addExtension]
      grind
  | pop =>
      simp only [apply]
      split <;> simp [Metadata.setAttribute]
  | _ => simp [apply, Metadata.setAttribute]

end X86Key

namespace Vocabulary

/-- The extensions that an assignment adds: the one that its key names, or the one that its
key names together with short vectors, and these. -/
def Adds (v : Vocabulary) (a : Assignment) (e : String) : Prop :=
  ((a.kind = .extension ∨ a.kind = .specialRegister) ∧ a.key = e ∧
    v.dictionaries.isExtension e = true) ∨
  (a.kind = .specific ∧ ∃ base, X86Key.shortVectors? a.key = some base ∧
    (e = base ∨ e = "AVX512VL"))

/-- The operations that are named between the bars of a text. -/
def operationsIn (s : String) : List String := ((piecesOf '|' s).map trimmed).filter (· ≠ "")

/-! ### What one assignment settles -/

namespace Entered

variable {v : Vocabulary} {m m' : Metadata} {a : Assignment}

theorem arch_eq (h : v.Entered m a m') :
    m'.arch = if a.kind = .architecture then a.key else m.arch := by
  cases h <;> rfl

theorem unspecified_eq (h : v.Entered m a m') :
    m'.unspecified = true ↔ a.kind = .unspecified ∨ m.unspecified = true := by
  cases h <;> simp

theorem operations_eq (h : v.Entered m a m') :
    m'.operations = m.operations ++
      if a.key = "Op" then a.value.text?.toList.flatMap operationsIn else [] := by
  cases h with
  | @operation value source =>
      cases value <;> simp [Meaning.operations, Setting.text?, operationsIn]
  | unspecified => simp
  | architecture hop | typed hop | extension hop | register hop | specific hop | unknown hop =>
      simp [hop]

theorem specialRegisters_eq (h : v.Entered m a m') :
    m'.specialRegisters =
      if a.kind = .specialRegister then m.specialRegisters.insert a.key a.value
      else m.specialRegisters := by
  cases h <;> rfl

theorem mem_extensions_iff (h : v.Entered m a m') (e : String) :
    e ∈ m'.extensions ↔ e ∈ m.extensions ∨ v.Adds a e := by
  cases h with
  | @extension key value source hop hattribute declared =>
      simp only [Adds, Metadata.mem_addExtension]
      grind
  | @register key value source hop hattribute declared =>
      simp only [Adds]
      split
      · rw [Metadata.mem_addExtension]
        grind
      · grind
  | @specific key value source k hop hattribute known =>
      rw [X86Key.mem_extensions_apply]
      refine or_congr_right ?_
      rcases x86Key?_cases known with ⟨extension, rfl, hvectors, -⟩ | hname
      · simp [Adds, hvectors]
      · have hvectors := X86Key.shortVectors?_of_name? hname
        have hother (base : String) : k ≠ .vectorLengths base := by
          rintro rfl
          simp [X86Key.name?] at hname
        simp [Adds, hvectors, hother]
  | _ => simp [Adds]

theorem attributes_get?_eq (h : v.Entered m a m') {name : String} {d : Attribute}
    (declared : v.dictionaries.attributes.get? name = some d) (hop : name ≠ "Op")
    (harch : v.dictionaries.isArchitecture name = false)
    (hx86 : v.knowsX86 = true → name ∉ X86Key.attributeNames) :
    m'.attributes.get? name =
      if a.kind ≠ .unspecified ∧ a.key = name then some (.coerced d.kind a.value)
      else m.attributes.get? name := by
  -- a key that gets past the attributes is none of those that are declared
  have hother {key : String} (h : v.dictionaries.attributes.get? key = none) : key ≠ name := by
    rintro rfl
    simp [h] at declared
  cases h with
  | unspecified => simp
  | operation => simp [Ne.symm hop]
  | @architecture key value source _ hkey =>
      have hname : key ≠ name := by
        rintro rfl
        simp [hkey] at harch
      simp [hname]
  | @typed key value source a _ _ hkey =>
      rw [Keyed.get?_insert]
      by_cases hname : name = key
      · subst hname
        obtain rfl : a = d := Option.some.inj (hkey.symm.trans declared)
        simp [AttributeValue.ofKind_eq_coerced]
      · simp [hname, Ne.symm hname]
  | extension _ hattribute => simp [hother hattribute]
  | register _ hattribute => simp [hother hattribute]
  | unknown _ hattribute => simp [hother hattribute]
  | @specific key value source k _ hattribute known =>
      rw [if_neg (by simp [hother hattribute])]
      exact k.get?_apply m value (hx86 (knowsX86_of_x86Key? known))

end Entered

/-! ### What a list of assignments settles -/

/-- What metadata says of each thing is what the last assignment in `log` says that speaks of
it. An attribute is spoken of by every assignment of its name, but not by a lone question
mark; the ones that x86 has of its own are left out here. -/
structure Tells (v : Vocabulary) (log : List Assignment) (m : Metadata) : Prop where
  arch_eq : m.arch = ((lastWith (·.kind = .architecture) log).map (·.key)).getD ""
  unspecified_iff : m.unspecified = true ↔ ∃ a ∈ log, a.kind = .unspecified
  operations_eq :
    m.operations = ((log.filter (·.key = "Op")).filterMap (·.value.text?)).flatMap operationsIn
  specialRegisters_eq : ∀ name, m.specialRegisters.get? name =
    (lastWith (fun a => a.kind = .specialRegister ∧ a.key = name) log).map (·.value)
  attributes_eq : ∀ name d, v.dictionaries.attributes.get? name = some d → name ≠ "Op" →
    v.dictionaries.isArchitecture name = false →
    (v.knowsX86 = true → name ∉ X86Key.attributeNames) →
    m.attributes.get? name =
      (lastWith (fun a => a.kind ≠ .unspecified ∧ a.key = name) log).map fun a =>
        .coerced d.kind a.value
  mem_extensions_iff : ∀ e, e ∈ m.extensions ↔ ∃ a ∈ log, v.Adds a e

variable {v : Vocabulary} {m : Metadata} {log : List Assignment}

theorem tells_empty (v : Vocabulary) : v.Tells [] {} where
  arch_eq := rfl
  unspecified_iff := by simp
  operations_eq := rfl
  specialRegisters_eq _ := rfl
  attributes_eq _ _ _ _ _ _ := rfl
  mem_extensions_iff _ := by simp

theorem Tells.enter (h : v.Tells log m) {a : Assignment} (ha : v.Makes a) :
    v.Tells (log ++ [a]) (v.enter m a) := by
  obtain ⟨m', hentered, henter⟩ := entered_enter ha m
  rw [henter]
  constructor
  case arch_eq =>
    rw [lastWith_concat]
    by_cases harch : a.kind = .architecture
    · simp [hentered.arch_eq, harch]
    · simp [hentered.arch_eq, harch, h.arch_eq]
  case unspecified_iff =>
    rw [hentered.unspecified_eq, h.unspecified_iff]
    simp [or_comm]
  case operations_eq =>
    simp only [List.filter_append, List.filterMap_append, List.flatMap_append, ← h.operations_eq,
      hentered.operations_eq]
    by_cases hop : a.key = "Op"
    · cases htext : a.value.text? <;> simp [hop, htext]
    · simp [hop]
  case specialRegisters_eq =>
    intro name
    rw [lastWith_concat, hentered.specialRegisters_eq]
    by_cases hkind : a.kind = .specialRegister
    · by_cases hname : name = a.key
      · simp [hkind, hname]
      · simp [hkind, hname, Ne.symm hname, h.specialRegisters_eq]
    · simp [hkind, h.specialRegisters_eq]
  case attributes_eq =>
    intro name d declared hop harch hx86
    rw [lastWith_concat, hentered.attributes_get?_eq declared hop harch hx86,
      h.attributes_eq name d declared hop harch hx86]
    by_cases hspeaks : a.kind ≠ .unspecified ∧ a.key = name
    · simp [hspeaks]
    · simp [hspeaks]
  case mem_extensions_iff =>
    intro e
    rw [hentered.mem_extensions_iff, h.mem_extensions_iff]
    simp [or_and_right, exists_or]

theorem Tells.foldl_enter {others : List Assignment} (h : v.Tells log m)
    (hmade : ∀ a ∈ others, v.Makes a) : v.Tells (log ++ others) (others.foldl v.enter m) := by
  induction others generalizing log m with
  | nil => rwa [List.append_nil]
  | cons a others ih =>
      obtain ⟨ha, hothers⟩ := List.forall_mem_cons.mp hmade
      rw [List.append_cons, List.foldl_cons]
      exact ih (h.enter ha) hothers

theorem tells_replay (h : ∀ a ∈ log, v.Makes a) : v.Tells log (v.replay log) :=
  (tells_empty v).foldl_enter h

/-- The privilege level that x86 adds at the end is none of the attributes spoken of. -/
theorem Tells.settle (h : v.Tells log m) : v.Tells log (v.settle m) := by
  unfold Vocabulary.settle
  split
  case isTrue hx86 =>
    refine { h with attributes_eq := ?_ }
    intro name d declared hop harch hnames
    have hprivilege : name ≠ "PRIVILEGE" := by
      rintro rfl
      exact hnames hx86 (by decide)
    rw [Keyed.get?_insertNew_of_ne _ hprivilege]
    exact h.attributes_eq name d declared hop harch hnames
  case isFalse => exact h

/-! ### What a text settles -/

theorem exists_unspecified_iff {s : String} :
    (∃ a ∈ v.log s, a.kind = .unspecified) ↔ "?" ∈ wordsOf s := by
  constructor
  · rintro ⟨a, ha, hkind⟩
    obtain ⟨word, hword, hmade⟩ := List.mem_flatMap.mp ha
    by_cases hmark : word = "?"
    · rwa [← hmark]
    · rw [assignmentsOf, if_neg hmark] at hmade
      obtain ⟨key, -, rfl⟩ := List.mem_map.mp hmade
      exact absurd hkind (kindOf_ne_unspecified v key _)
  · intro hmark
    exact ⟨⟨"?", .set, .explicit, .unspecified⟩,
      List.mem_flatMap.mpr ⟨"?", hmark, List.mem_singleton.mpr rfl⟩, rfl⟩

theorem tells_read (v : Vocabulary) (s : String) : v.Tells (v.log s) (v.read s).1 := by
  have hmade : ∀ a ∈ v.log s, v.Makes a := fun _ => makes_of_mem_log
  rw [read_eq]
  exact (tells_replay hmade).settle

/-- Metadata is what its assignments say, each thing as the last of them says it. -/
theorem read_tells (v : Vocabulary) (s : String) :
    (v.read s).1 = v.settle (v.replay (v.read s).1.assignments) ∧
    ((v.read s).1.unspecified = true ↔ "?" ∈ wordsOf s) ∧
    v.Tells (v.read s).1.assignments (v.read s).1 := by
  have htells := tells_read v s
  rw [assignments_read]
  refine ⟨?_, htells.unspecified_iff.trans exists_unspecified_iff, htells⟩
  rw [read_eq]

/-- An attribute may be named like the lone question mark, which does not set it: its
assignment has the name of the attribute, and the attribute stays without a value. -/
theorem question_mark_sets_no_attribute :
    let d : Dictionaries := { dialect := .arm, attributes := .ofList [("?", ⟨"?", .flag, ""⟩)] }
    let m := ((ofDialect d).read "?").1
    d.attributes.contains "?" = true ∧ d.isArchitecture "?" = false ∧
      ¬((m.attributes.get? "?").isSome = true ↔ ∃ a ∈ m.assignments, a.key = "?") := by
  decide +kernel

end Vocabulary

end InstrTable
