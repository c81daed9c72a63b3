import InstrTable.Proofs.Metadata.DialectKeys
import InstrTable.Proofs.Record.Consistency
import InstrTable.Proofs.Record.Decorations

/-!
The attributes of x86 instructions that no dictionary declares. The metadata writes them, then the
decorations of the operands, then their broadcast sizes, and the privilege level is there in any
case. Whatever is written, and however often, the attributes fit together.
-/

namespace InstrTable

/-- The value of an attribute of a record. -/
def Record.attribute? (r : Record) (name : String) : Option AttributeValue :=
  r.metadata.attributes.get? name

/-- The attributes that only x86 has, in the record of an entry. -/
structure Record.DialectAttributes (entry : Entry) (r : Record) : Prop where
  /-- Zeroing needs a mask. -/
  masking : (r.attribute? "kz").isSome = true → r.attribute? "k" = some (.flag true)
  /-- A rounding mode suppresses exceptions. -/
  rounding : (r.attribute? "er").isSome = true → r.attribute? "sae" = some (.flag true)
  /-- Only an instruction of the FPU moves the top of its stack, by a number of registers. -/
  stack : (r.attribute? "FPU_TOP").isSome = true →
    r.attribute? "FPU" = some (.flag true) ∧ ∃ n, r.attribute? "FPU_TOP" = some (.number n)
  privilege : (r.attribute? "PRIVILEGE").isSome = true
  /-- An instruction that states no level may run at all of them. -/
  privilege_default : (∀ a ∈ r.metadata.assignments, a.key ≠ "PRIVILEGE") →
    r.attribute? "PRIVILEGE" = some (.text "L3")
  /-- Every decoration counts, wherever it stands among the operands. -/
  decorations : ∀ key ∈ ["k", "kz", "er", "sae"],
    '{' :: (key.toList ++ ['}']) <:+: entry.operands.toList → (r.attribute? key).isSome = true
  /-- The broadcast size is that of the last operand that has one. -/
  broadcast : ∀ op, (r.operands.filter (·.broadcast ≠ 0)).getLast? = some op →
    r.attribute? "broadcast" = some (.text (toString op.broadcast))

namespace Record

variable {d : Dictionaries}

/-- What is written among the operands of x86: the decorations, and then the broadcast sizes. -/
theorem decorations_eq (hx86 : d.dialect = .x86) {s : String} {operands : List Operand}
    {decorations : List (String × Setting)} {ds : List Diagnostic}
    (h : readOperands d s = (.ok (operands, decorations), ds)) :
    decorations =
      (takeDecorations s.toList).2.map (fun key => (String.ofList key, .set)) ++
        broadcasts operands := by
  simp only [readOperands, hx86] at h
  rcases hlist : readList d (String.ofList (takeDecorations s.toList).1) with ⟨_ | ops, reports⟩
  · simp [hlist, Except.map] at h
  · simp only [hlist, Except.map, Prod.mk.injEq, Except.ok.injEq] at h
    obtain ⟨⟨rfl, rfl⟩, -⟩ := h
    rfl

/-- An attribute that no dictionary declares has the value that was written last. -/
theorem attribute?_eq {v : Vocabulary} {name : String}
    (hname : v.dictionaries.attributes.get? name = none) (s : String)
    (decorations : List (String × Setting)) :
    let m := (decorate v (v.read s).1 decorations).1
    m.attributes.get? name = (lastWritten? name m.assignments).or (v.default? name) := by
  intro m
  have hmade : ∀ a ∈ decorationLog v decorations, v.Makes a := fun _ => makes_of_mem_decorationLog
  have hassignments : m.assignments = v.log s ++ decorationLog v decorations :=
    assignments_decorate v s decorations
  have hm : m = (decorationLog v decorations).foldl v.enter (v.read s).1 :=
    congrArg Prod.fst (decorate_eq v (v.read s).1 decorations)
  rw [hassignments, lastWritten?_append, hm, Vocabulary.get?_foldl_enter hmade _ hname,
    Vocabulary.get?_read hname, Option.or_assoc]

section Reading

variable [Capacity] {entry : Entry} {aliasOf : String} {r : Record} {ds : Diagnostics}

/-- The metadata of a record, in either dialect. -/
theorem metadata_of_read (h : read d entry aliasOf = (.ok r, ds)) :
    ∃ decorations,
      r.metadata = (decorate (.ofDialect d) ((Vocabulary.ofDialect d).read entry.metadata).1
        decorations).1 ∧
      r.arch = if r.metadata.arch = "" then d.dialect.defaultArch r.encoding
        else r.metadata.arch := by
  obtain ⟨_, decorations, _, _, _, -, -, rfl, -⟩ := read_eq_ok_iff.mp h
  exact ⟨decorations, rfl, rfl⟩

/-- A record has one list of assignments, which tells all of its metadata. -/
theorem tells_of_read (h : read d entry aliasOf = (.ok r, ds)) :
    let v := Vocabulary.ofDialect d
    v.Tells r.metadata.assignments r.metadata ∧ (∀ a ∈ r.metadata.assignments, v.Makes a) ∧
      ∀ name, d.attributes.get? name = none →
        r.attribute? name =
          (lastWritten? name r.metadata.assignments).or (v.default? name) := by
  intro v
  obtain ⟨decorations, hmetadata, -⟩ := metadata_of_read h
  have hlog : r.metadata.assignments = v.log entry.metadata ++ decorationLog v decorations := by
    rw [hmetadata, assignments_decorate]
  refine ⟨?_, ?_, fun name hname => ?_⟩
  · rw [hlog, hmetadata]
    exact tells_decorate v entry.metadata decorations
  · rw [hlog]
    exact List.forall_mem_append.mpr
      ⟨fun _ => Vocabulary.makes_of_mem_log, fun _ => makes_of_mem_decorationLog⟩
  · rw [attribute?, hmetadata]
    exact attribute?_eq (v := v) hname entry.metadata decorations

end Reading

/-- The broadcast sizes are written after all else, the last of them last. -/
theorem lastWritten?_broadcasts {v : Vocabulary} (hx86 : v.knowsX86 = true)
    (hfree : ¬v.dictionaries.Declares "broadcast") (operands : List Operand) :
    lastWritten? "broadcast" (decorationLog v (broadcasts operands)) =
      (operands.filter (·.broadcast ≠ 0)).getLast?.map fun op =>
        .text (toString op.broadcast) := by
  have hwritten (op : Operand) :
      let value := .text (String.ofList (Text.digits op.broadcast))
      (Assignment.mk "broadcast" value .explicit (v.kindOf "broadcast" value)).written?
        "broadcast" = some (.text (toString op.broadcast)) :=
    Vocabulary.written?_assignment hx86 hfree rfl .explicit "broadcast"
  rw [lastWritten?, decorationLog, broadcasts, List.map_map, List.filterMap_map,
    ← List.getLast?_map, ← List.filterMap_eq_map]
  exact congrArg (fun f => (List.filterMap f _).getLast?) (funext hwritten)

/-- A decoration that stands in braces among the operands is assigned. -/
theorem mem_decorationLog (hx86 : d.dialect = .x86) {s key : String} {operands : List Operand}
    {decorations : List (String × Setting)} {ds : List Diagnostic}
    (h : readOperands d s = (.ok (operands, decorations), ds)) (hkey : Braceless key.toList)
    (hwritten : '{' :: (key.toList ++ ['}']) <:+: s.toList) (v : Vocabulary) :
    ⟨key, .set, .explicit, v.kindOf key .set⟩ ∈ decorationLog v decorations := by
  have htaken := mem_takeDecorations hkey hwritten
  have hmem : (key, Setting.set) ∈ decorations := by
    rw [decorations_eq hx86 h]
    exact List.mem_append_left _ (List.mem_map.mpr ⟨key.toList, htaken, by simp⟩)
  exact List.mem_map.mpr ⟨(key, .set), hmem, rfl⟩

section Undeclared

variable [Capacity] {entry : Entry} {aliasOf : String} {r : Record} {ds : Diagnostics}

variable (hx86 : d.dialect = .x86) (hfree : ∀ name ∈ X86Key.attributeNames, ¬d.Declares name)
  (h : read d entry aliasOf = (.ok r, ds))

include hfree h

theorem attribute?_eq_of_mem {name : String} (hname : name ∈ X86Key.attributeNames) :
    r.attribute? name = (lastWritten? name r.metadata.assignments).or
      ((Vocabulary.ofDialect d).default? name) :=
  (tells_of_read h).2.2 name (Dictionaries.get?_of_not_declares (hfree name hname))

theorem attribute?_eq_lastWritten? {name : String} (hname : name ∈ X86Key.attributeNames)
    (hother : name ≠ "PRIVILEGE") :
    r.attribute? name = lastWritten? name r.metadata.assignments := by
  have hdefault : (Vocabulary.ofDialect d).default? name = none := if_neg fun h => hother h.2
  rw [attribute?_eq_of_mem hfree h hname, hdefault, Option.or_none]

/-- What is written together with another attribute is there when that is. -/
theorem attribute?_of_implies {cause effect : String}
    (himplies : (cause, effect) ∈ X86Key.implications)
    (hcause : (r.attribute? cause).isSome = true) : r.attribute? effect = some (.flag true) := by
  have hnames : ∀ pair ∈ X86Key.implications,
      (pair.1 ∈ X86Key.attributeNames ∧ pair.1 ≠ "PRIVILEGE") ∧
        pair.2 ∈ X86Key.attributeNames ∧ pair.2 ≠ "PRIVILEGE" := by decide
  obtain ⟨⟨hmem, hother⟩, hmem', hother'⟩ := hnames _ himplies
  obtain ⟨x, hx⟩ := Option.isSome_iff_exists.mp hcause
  rw [attribute?_eq_lastWritten? hfree h hmem hother] at hx
  rw [attribute?_eq_lastWritten? hfree h hmem' hother', lastWritten?_of_implies himplies hx]

theorem exists_number_of_top (htop : (r.attribute? "FPU_TOP").isSome = true) :
    ∃ n, r.attribute? "FPU_TOP" = some (.number n) := by
  have heq : r.attribute? "FPU_TOP" = lastWritten? "FPU_TOP" r.metadata.assignments :=
    attribute?_eq_lastWritten? hfree h (by decide) (by decide)
  obtain ⟨x, hx⟩ := Option.isSome_iff_exists.mp htop
  obtain ⟨a, -, ha⟩ := exists_of_lastWritten? (heq.symm.trans hx)
  obtain ⟨n, rfl⟩ := exists_number_of_written? ha
  exact ⟨n, hx⟩

include hx86

theorem privilege_eq : r.attribute? "PRIVILEGE" =
    some ((lastWritten? "PRIVILEGE" r.metadata.assignments).getD (.text "L3")) := by
  have hdefault : (Vocabulary.ofDialect d).default? "PRIVILEGE" = some (.text "L3") :=
    if_pos ⟨decide_eq_true hx86, rfl⟩
  rw [attribute?_eq_of_mem hfree h (by decide), hdefault]
  cases lastWritten? "PRIVILEGE" r.metadata.assignments <;> rfl

theorem isSome_attribute?_of_braces {key : String} (hkey : key ∈ ["k", "kz", "er", "sae"])
    (hwritten : '{' :: (key.toList ++ ['}']) <:+: entry.operands.toList) :
    (r.attribute? key).isSome = true := by
  obtain ⟨decorations, _, hoperands, -, -, hmetadata, -⟩ := exists_of_read hx86 h
  let v := Vocabulary.ofDialect d
  have hkeys : ∀ key ∈ ["k", "kz", "er", "sae"], Braceless key.toList ∧
      key ∈ X86Key.attributeNames ∧ key ≠ "PRIVILEGE" ∧
        (X86Key.ofName? key .set).bind (·.written? key .set) = some (.flag true) := by decide
  obtain ⟨hbraceless, hname, hother, hwrites⟩ := hkeys key hkey
  obtain ⟨k, hk, hflag⟩ := Option.bind_eq_some_iff.mp hwrites
  let a : Assignment := ⟨key, .set, .explicit, v.kindOf key .set⟩
  have hmem : a ∈ r.metadata.assignments := by
    rw [hmetadata, assignments_decorate]
    exact List.mem_append_right _ (mem_decorationLog hx86 hoperands hbraceless hwritten v)
  have ha : a.written? key = some (.flag true) := by
    have hspecific := Vocabulary.written?_assignment (v := v) (decide_eq_true hx86)
      (hfree key hname) hk .explicit key
    exact hspecific.trans hflag
  rw [attribute?_eq_lastWritten? hfree h hname hother]
  exact isSome_lastWritten? hmem (Option.isSome_of_eq_some ha)

theorem broadcast_eq {op : Operand}
    (hlast : (r.operands.filter (·.broadcast ≠ 0)).getLast? = some op) :
    r.attribute? "broadcast" = some (.text (toString op.broadcast)) := by
  obtain ⟨decorations, _, hoperands, -, -, hmetadata, -⟩ := exists_of_read hx86 h
  have hsizes := lastWritten?_broadcasts (v := .ofDialect d) (decide_eq_true hx86)
    (hfree "broadcast" (by decide)) r.operands
  rw [hlast] at hsizes
  rw [attribute?_eq_lastWritten? hfree h (by decide) (by decide), hmetadata, assignments_decorate,
    decorations_eq hx86 hoperands, decorationLog, List.map_append, ← List.append_assoc,
    lastWritten?_append, ← decorationLog, hsizes]
  rfl

end Undeclared

/-- Every configuration of x86 that leaves the attributes of its dialect undeclared gives records
whose attributes fit together. -/
theorem dialectAttributes_of_read [Capacity] {entry : Entry} {aliasOf : String} {r : Record}
    {ds : Diagnostics} (hx86 : d.dialect = .x86)
    (hfree : ∀ name ∈ X86Key.attributeNames, ¬d.Declares name)
    (h : read d entry aliasOf = (.ok r, ds)) : r.DialectAttributes entry := by
  have hprivilege := privilege_eq hx86 hfree h
  constructor
  case masking => exact fun hkz => attribute?_of_implies hfree h (by decide) hkz
  case rounding => exact fun her => attribute?_of_implies hfree h (by decide) her
  case stack =>
    intro htop
    exact ⟨attribute?_of_implies hfree h (by decide) htop, exists_number_of_top hfree h htop⟩
  case privilege => exact Option.isSome_of_eq_some hprivilege
  case privilege_default =>
    intro hnone
    have hunwritten : lastWritten? "PRIVILEGE" r.metadata.assignments = none := by
      by_contra hwritten
      obtain ⟨x, hx⟩ := Option.ne_none_iff_exists'.mp hwritten
      obtain ⟨a, ha, hax⟩ := exists_of_lastWritten? hx
      exact hnone a ha (key_eq_privilege hax)
    rw [hprivilege, hunwritten]
    rfl
  case decorations => exact fun _ => isSome_attribute?_of_braces hx86 hfree h
  case broadcast => exact fun _ => broadcast_eq hx86 hfree h

theorem dialectAttributes_of_read_addps :
    let d : Dictionaries := {
      dialect := .x86
      extensions := .ofList [("AVX512F", { name := "AVX512F" })]
      registers := .ofList [("zmm", ⟨.text "zmm", .text "vec", none⟩)] }
    let entry : Entry := ⟨"vaddps", "W:zmm {kz}, zmm, zmm/m512/b32 {er}", "RVM-FV",
      "EVEX.NDS.512.0F.W0 58 /r", "AVX512F broadcast=64"⟩
    ∃ r ds, read d entry "" = (.ok r, ds) ∧ r.DialectAttributes entry ∧
      r.attribute? "kz" = some (.flag true) ∧ r.attribute? "er" = some (.flag true) ∧
      r.operands.map (·.broadcast) = [0, 0, 32] := by
  intro d entry
  obtain ⟨r, ds, hread, hfacts⟩ : ∃ r ds, read d entry "" = (.ok r, ds) ∧
      (r.attribute? "kz", r.attribute? "er", r.operands.map (·.broadcast)) =
        (some (.flag true), some (.flag true), [0, 0, 32]) :=
    exists_of_map_toOption (by decide +kernel)
  obtain ⟨hkz, her, hsizes⟩ : _ ∧ _ ∧ _ := by simpa using hfacts
  exact ⟨r, ds, hread, dialectAttributes_of_read rfl (by decide) hread, hkz, her, hsizes⟩

end Record

end InstrTable
