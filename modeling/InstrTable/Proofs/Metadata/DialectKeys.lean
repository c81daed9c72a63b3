import InstrTable.Proofs.Metadata.LastWriter

/-!
The attributes that only x86 has. Its keys write one or two of them. Where no dictionary declares
an attribute, its value is that of the last assignment that writes it, and what one key writes
together stays together.
-/

namespace InstrTable

namespace X86Key

/-- The attributes that a key writes. -/
def writes (value : Setting) : X86Key → List (String × AttributeValue)
  | .vectorLengths _ => []
  | .fpu => [("FPU", .flag true)]
  | .masking => [("k", .flag true)]
  | .zeroMasking => [("kz", .flag true), ("k", .flag true)]
  | .exceptions => [("sae", .flag true)]
  | .rounding => [("er", .flag true), ("sae", .flag true)]
  | .privilege => [("PRIVILEGE", .ofSetting value)]
  | .broadcast => [("broadcast", .ofSetting value)]
  | .push => [("FPU", .flag true), ("FPU_TOP", .number (-1))]
  | .pop => ("FPU", .flag true) :: (popCount? value).toList.map fun n => ("FPU_TOP", .number n)
  | .top n => [("FPU", .flag true), ("FPU_TOP", .number n)]

/-- What a key makes of an attribute, if it writes it. -/
def written? (name : String) (value : Setting) (k : X86Key) : Option AttributeValue :=
  (k.writes value).lookup name

theorem nodup_writes (value : Setting) (k : X86Key) : ((k.writes value).map Prod.fst).Nodup := by
  cases k with
  | pop => cases hcount : popCount? value <;> simp [writes, hcount]
  | _ => simp [writes]

theorem attributes_apply (m : Metadata) (value : Setting) (k : X86Key) :
    (k.apply m value).attributes =
      (k.writes value).foldl (fun t e => t.insert e.1 e.2) m.attributes := by
  cases k with
  | vectorLengths extension => simp only [apply, Metadata.addExtension_eq, writes, List.foldl_nil]
  | pop =>
      simp only [apply, writes]
      cases popCount? value <;> rfl
  | _ => rfl

theorem get?_apply_eq (m : Metadata) (value : Setting) (k : X86Key) (name : String) :
    (k.apply m value).attributes.get? name =
      (k.written? name value).or (m.attributes.get? name) := by
  rw [attributes_apply, Keyed.get?_foldl_insert (k.nodup_writes value), written?]

variable {k : X86Key} {name cause effect : String} {value : Setting} {x : AttributeValue}

theorem written?_eq_some_iff :
    k.written? name value = some x ↔ (name, x) ∈ k.writes value :=
  Keyed.lookup_eq_some_iff (k.nodup_writes value)

/-- The attributes that are flags. -/
def flagNames : List String := ["FPU", "k", "kz", "er", "sae"]

/-- The attributes that another one is written with. -/
def implications : List (String × String) := [("kz", "k"), ("er", "sae"), ("FPU_TOP", "FPU")]

/-- What stands in an attribute: a set flag, a number, or the value of the key. -/
theorem mem_writes_cases (h : (name, x) ∈ k.writes value) :
    (name ∈ flagNames ∧ x = .flag true) ∨ (name = "FPU_TOP" ∧ ∃ n, x = .number n) ∨
      (name = "PRIVILEGE" ∧ k = .privilege) ∨ (name = "broadcast" ∧ k = .broadcast) := by
  cases k with
  | pop =>
      rw [writes, List.mem_cons, List.mem_map] at h
      rcases h with heq | ⟨n, -, heq⟩
      · obtain ⟨rfl, rfl⟩ := Prod.mk.inj heq
        exact .inl ⟨by decide, rfl⟩
      · obtain ⟨rfl, rfl⟩ := Prod.mk.inj heq
        exact .inr (.inl ⟨rfl, n, rfl⟩)
  | vectorLengths extension => exact absurd h List.not_mem_nil
  | _ => grind [writes, flagNames]

theorem mem_writes_of_implies (himplies : (cause, effect) ∈ implications)
    (h : (cause, x) ∈ k.writes value) : (effect, .flag true) ∈ k.writes value := by
  simp only [implications, List.mem_cons, Prod.mk.injEq, List.not_mem_nil, or_false] at himplies
  rcases himplies with ⟨rfl, rfl⟩ | ⟨rfl, rfl⟩ | ⟨rfl, rfl⟩
  all_goals cases k <;> simp_all [writes]

end X86Key

/-- Whether some dictionary declares a name. -/
def Dictionaries.Declares (d : Dictionaries) (name : String) : Prop :=
  d.isArchitecture name = true ∨ d.attributes.contains name = true ∨
    d.isExtension name = true ∨ d.specialRegisters.contains name = true

instance (d : Dictionaries) (name : String) : Decidable (d.Declares name) :=
  inferInstanceAs (Decidable (_ ∨ _))

theorem Dictionaries.get?_of_not_declares {d : Dictionaries} {name : String}
    (h : ¬d.Declares name) : d.attributes.get? name = none := by
  simp only [Declares, not_or] at h
  simpa [Keyed.contains] using h.2.1

/-! ### Assignments that write an attribute -/

/-- What an assignment of a key of x86 makes of an attribute, if it writes it. -/
def Assignment.written? (name : String) (a : Assignment) : Option AttributeValue :=
  if a.kind = .specific then (X86Key.ofName? a.key a.value).bind (·.written? name a.value)
  else none

/-- What the last assignment that writes an attribute makes of it. -/
def lastWritten? (name : String) (log : List Assignment) : Option AttributeValue :=
  (log.filterMap (Assignment.written? name)).getLast?

section

variable {name cause effect : String} {a : Assignment} {log others : List Assignment}
  {x : AttributeValue}

theorem Assignment.written?_eq_some_iff :
    a.written? name = some x ↔ a.kind = .specific ∧
      ∃ k, X86Key.ofName? a.key a.value = some k ∧ (name, x) ∈ k.writes a.value := by
  unfold written?
  split
  · next hkind =>
    simp only [hkind, true_and, Option.bind_eq_some_iff, X86Key.written?_eq_some_iff]
  · next hkind => simp [hkind]

theorem eq_flag_of_written? (hname : name ∈ X86Key.flagNames) (h : a.written? name = some x) :
    x = .flag true := by
  obtain ⟨-, k, -, hmem⟩ := Assignment.written?_eq_some_iff.mp h
  have hother : ∀ other ∈ ["FPU_TOP", "PRIVILEGE", "broadcast"], other ∉ X86Key.flagNames := by
    decide
  rcases X86Key.mem_writes_cases hmem with ⟨-, hx⟩ | ⟨rfl, -⟩ | ⟨rfl, -⟩ | ⟨rfl, -⟩
  · exact hx
  all_goals exact absurd hname (hother _ (by decide))

/-- The privilege level is written under its own name only. -/
theorem key_eq_privilege (h : a.written? "PRIVILEGE" = some x) : a.key = "PRIVILEGE" := by
  obtain ⟨-, k, hkey, hmem⟩ := Assignment.written?_eq_some_iff.mp h
  have hother : "PRIVILEGE" ∉ X86Key.flagNames := by decide
  rcases X86Key.mem_writes_cases hmem with ⟨hflag, -⟩ | ⟨htop, -⟩ | ⟨-, rfl⟩ | ⟨hbroadcast, -⟩
  · exact absurd hflag hother
  · simp at htop
  · exact (Option.some.inj (X86Key.name?_of_ofName? hkey)).symm
  · simp at hbroadcast

theorem exists_number_of_written? (h : a.written? "FPU_TOP" = some x) : ∃ n, x = .number n := by
  obtain ⟨-, k, -, hmem⟩ := Assignment.written?_eq_some_iff.mp h
  have hother : "FPU_TOP" ∉ X86Key.flagNames := by decide
  rcases X86Key.mem_writes_cases hmem with ⟨hflag, -⟩ | ⟨-, hx⟩ | ⟨hprivilege, -⟩ | ⟨hbroadcast, -⟩
  · exact absurd hflag hother
  · exact hx
  · simp at hprivilege
  · simp at hbroadcast

theorem lastWritten?_append :
    lastWritten? name (log ++ others) = (lastWritten? name others).or (lastWritten? name log) := by
  simp [lastWritten?, List.filterMap_append, List.getLast?_append]

theorem lastWritten?_cons :
    lastWritten? name (a :: log) = (lastWritten? name log).or (a.written? name) := by
  rw [← List.singleton_append, lastWritten?_append]
  cases hwritten : a.written? name <;> simp [lastWritten?, hwritten]

theorem exists_of_lastWritten? (h : lastWritten? name log = some x) :
    ∃ a ∈ log, a.written? name = some x :=
  List.mem_filterMap.mp (List.mem_of_getLast? h)

theorem isSome_lastWritten? (ha : a ∈ log) (h : (a.written? name).isSome = true) :
    (lastWritten? name log).isSome = true := by
  obtain ⟨x, hx⟩ := Option.isSome_iff_exists.mp h
  have hmem : x ∈ log.filterMap (Assignment.written? name) := List.mem_filterMap.mpr ⟨a, ha, hx⟩
  rw [lastWritten?, List.getLast?_isSome]
  exact List.ne_nil_of_mem hmem

/-- What an assignment writes together with another attribute is kept as long as that is. -/
theorem lastWritten?_of_implies (himplies : (cause, effect) ∈ X86Key.implications)
    (h : lastWritten? cause log = some x) : lastWritten? effect log = some (.flag true) := by
  obtain ⟨a, ha, hcause⟩ := exists_of_lastWritten? h
  obtain ⟨hkind, k, hkey, hmem⟩ := Assignment.written?_eq_some_iff.mp hcause
  have heffect : a.written? effect = some (.flag true) :=
    Assignment.written?_eq_some_iff.mpr
      ⟨hkind, k, hkey, X86Key.mem_writes_of_implies himplies hmem⟩
  have hsome := isSome_lastWritten? ha (Option.isSome_of_eq_some heffect)
  obtain ⟨y, hy⟩ := Option.isSome_iff_exists.mp hsome
  -- a later assignment may write the effect alone, and sets the same flag
  obtain ⟨b, -, hb⟩ := exists_of_lastWritten? hy
  have hflag : ∀ pair ∈ X86Key.implications, pair.2 ∈ X86Key.flagNames := by decide
  rw [hy, eq_flag_of_written? (hflag _ himplies) hb]

end

namespace Vocabulary

variable {v : Vocabulary} {m m' : Metadata} {a : Assignment} {name : String}

theorem ofName?_of_x86Key? {key : String} {value : Setting} {k : X86Key}
    (h : v.x86Key? key value = some k) (name : String) :
    (X86Key.ofName? key value).bind (·.written? name value) = k.written? name value := by
  unfold x86Key? at h
  split at h
  · split at h
    · next extension hfilter =>
      -- a key that asks for short vectors has no name, and writes no attribute
      obtain rfl := Option.some.inj h
      have hvectors := (Option.filter_eq_some_iff.mp hfilter).1
      have hnone : X86Key.ofName? key value = none := by
        cases hname : X86Key.ofName? key value with
        | none => rfl
        | some k' =>
            have hno := X86Key.shortVectors?_of_name? (X86Key.name?_of_ofName? hname)
            simp [hvectors] at hno
      rw [hnone]
      rfl
    · rw [h, Option.bind_some]
  · contradiction

/-- An attribute that no dictionary declares is changed by the assignments that write it. -/
theorem Entered.get?_written (h : v.Entered m a m')
    (hname : v.dictionaries.attributes.get? name = none) :
    m'.attributes.get? name = (a.written? name).or (m.attributes.get? name) := by
  cases h with
  | @typed key value source d hop harch declared =>
      have hother : name ≠ key := by
        rintro rfl
        simp [hname] at declared
      simp [Assignment.written?, hother]
  | @specific key value source k hop hattribute known =>
      simp [Assignment.written?, X86Key.get?_apply_eq, ofName?_of_x86Key? known]
  | _ => simp [Assignment.written?]

theorem get?_foldl_enter {log : List Assignment} (hmade : ∀ a ∈ log, v.Makes a) (m : Metadata)
    (hname : v.dictionaries.attributes.get? name = none) :
    (log.foldl v.enter m).attributes.get? name =
      (lastWritten? name log).or (m.attributes.get? name) := by
  induction log generalizing m with
  | nil => rfl
  | cons a log ih =>
      obtain ⟨ha, hlog⟩ := List.forall_mem_cons.mp hmade
      obtain ⟨m', hentered, henter⟩ := entered_enter ha m
      rw [List.foldl_cons, ih hlog, henter, lastWritten?_cons, Option.or_assoc]
      exact congrArg _ (hentered.get?_written hname)

/-- The value of an attribute that nothing writes. Only x86 has one. -/
def default? (v : Vocabulary) (name : String) : Option AttributeValue :=
  if v.knowsX86 = true ∧ name = "PRIVILEGE" then some (.text "L3") else none

theorem get?_read (hname : v.dictionaries.attributes.get? name = none) (s : String) :
    (v.read s).1.attributes.get? name = (lastWritten? name (v.log s)).or (v.default? name) := by
  have hreplay : (v.replay (v.log s)).attributes.get? name = lastWritten? name (v.log s) := by
    rw [replay, get?_foldl_enter (fun _ => makes_of_mem_log) {} hname]
    exact Option.or_none
  rw [read_eq, settle, default?]
  split
  · next hx86 =>
    simp only [hx86, true_and]
    rw [Keyed.get?_insertNew, hreplay]
  · next hx86 =>
    rw [if_neg fun h => hx86 h.1, Option.or_none]
    exact hreplay

/-- A key of x86 that no dictionary declares means what it means to x86. -/
theorem kindOf_eq_specific (hx86 : v.knowsX86 = true) {key : String} {value : Setting}
    {k : X86Key} (hfree : ¬v.dictionaries.Declares key)
    (h : X86Key.ofName? key value = some k) : v.kindOf key value = .specific := by
  have hvectors := X86Key.shortVectors?_of_name? (X86Key.name?_of_ofName? h)
  have hop : key ≠ "Op" := by
    rintro rfl
    simp [X86Key.ofName?] at h
  have hattribute := Dictionaries.get?_of_not_declares hfree
  simp only [Dictionaries.Declares, not_or, Bool.not_eq_true] at hfree
  simp [kindOf, meaning, x86Key?, hx86, hop, hattribute, hfree, hvectors, h, Meaning.kind]

theorem written?_assignment (hx86 : v.knowsX86 = true) {key : String} {value : Setting}
    {k : X86Key} (hfree : ¬v.dictionaries.Declares key) (h : X86Key.ofName? key value = some k)
    (source : Source) (name : String) :
    (Assignment.mk key value source (v.kindOf key value)).written? name =
      k.written? name value := by
  simp [Assignment.written?, kindOf_eq_specific hx86 hfree h, h]

end Vocabulary

end InstrTable
