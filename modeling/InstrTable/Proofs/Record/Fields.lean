import InstrTable.Proofs.Record.Consistency

/-!
Records of ARM: operands and opcode agree on the immediates. An immediate names a field of the
opcode and is as wide as what the fields of that name hold. An immediate that names none is
reported, each of them once, and no other part of the record reports such a thing.
-/

namespace InstrTable

/-- A form in an instruction with the opcode `t`: an immediate has the width of its field. -/
def Form.widened (t : BitTemplate) : Form → Form
  | .immediate i => .immediate { i with width := t.fieldWidth i.name }
  | form => form

@[simp] theorem Form.isMemoryOrEncoded_widened (t : BitTemplate) (form : Form) :
    (form.widened t).isMemoryOrEncoded = form.isMemoryOrEncoded := by
  cases form <;> rfl

/-- An operand in an instruction with the opcode `t`. Nothing but the widths of its immediates
comes from there. -/
def Operand.widened (t : BitTemplate) (op : Operand) : Operand :=
  { op with
    forms := op.forms.map (Form.widened t)
    forms_ne_nil := by simpa using op.forms_ne_nil }

theorem Operand.widened_eq_self {t : BitTemplate} {op : Operand}
    (h : op.forms.map (Form.widened t) = op.forms) : op.widened t = op := by
  obtain ⟨text, forms, access, bitRange, implicit, optional, broadcast, shift, hne⟩ := op
  simp only [widened, h]

/-- An immediate operand whose name is no field of the opcode. -/
def Operand.lacksField (t : BitTemplate) (op : Operand) : Bool :=
  op.immediate?.any fun i => !t.hasField i.name

/-- Whether an immediate without a field is reported. -/
def Diagnostic.isWithoutField : Diagnostic → Bool
  | .immediateWithoutField .. => true
  | _ => false

/-- A record of ARM that agrees with itself. -/
structure Record.Fitting (r : Record) (t : BitTemplate) : Prop where
  immediates : ∀ op ∈ r.operands, ∀ i, .immediate i ∈ op.forms → t.hasField i.name = true
  width : t.width = if r.encoding = "T16" then 16 else 32
  /-- Of the fields of one name either all are slices, or none. -/
  slices : ∀ f ∈ t.fields, ∀ g ∈ t.fields, ∀ name, f.name? = some name → g.name? = some name →
    f.content.slice?.isSome = g.content.slice?.isSome
  implicit : ∀ op ∈ r.operands, op.implicit = true →
    ∀ form ∈ op.forms, form.isMemoryOrEncoded = false

/-! ### The operands -/

namespace Operand.Arm

/-- An immediate has no width of its own. -/
theorem width_of_classify {alt : String} {i : ImmediateForm}
    (h : (classify alt).1 = .ok (some (.immediate i))) : i.width = 0 := by
  unfold classify at h
  split at h
  · rcases hmemory : memory alt with ⟨_ | _ | m, ds⟩ <;> simp [hmemory, Except.map] at h
  · simp only at h
    split at h
    · obtain rfl : immediate _ _ = i := by simpa using h
      rfl
    · simp at h

theorem not_isWithoutField_of_classify {alt : String} :
    ∀ x ∈ (classify alt).2, x.isWithoutField = false := by
  unfold classify memory
  split
  · simp only
    split
    · simp [Diagnostic.isWithoutField]
    · split <;> simp
  · simp only
    split <;> simp

end Operand.Arm

namespace Grammar

variable {token : String} {fallback : Option Access}

/-- The form of an operand of ARM is that of its core. -/
theorem forms_arm (core : String) :
    arm.forms token [core] = match Operand.Arm.classify core with
      | (.error e, ds) => (.error e, ds)
      | (.ok none, ds) => (.ok [], ds ++ [.unknownOperand core token])
      | (.ok (some form), ds) => (.ok [form], ds) := by
  simp only [forms]
  split
  · next h => simp [show Operand.Arm.classify core = _ from h]
  · next h => simp [show Operand.Arm.classify core = _ from h]
  · next h => simp [show Operand.Arm.classify core = _ from h, Except.map]

/-- An operand of ARM has one form. -/
theorem forms_of_read_arm {op : Operand} {ds : List Diagnostic}
    (h : arm.read token fallback = (.ok (some op), ds)) :
    ∃ form, op.forms = [form] ∧ ∀ i, form = .immediate i → i.width = 0 := by
  have halternatives (core : String) : arm.alternatives core = .ok [core] := rfl
  simp only [read, halternatives, forms_arm] at h
  generalize String.ofList (arm.takeShift (Operand.peel token).core).2 = core at h
  rcases hclassify : Operand.Arm.classify core with ⟨_ | _ | form, ds₀⟩
  · simp [hclassify] at h
  · simp [hclassify] at h
  · simp only [hclassify, List.cons_ne_nil, dite_false, Prod.mk.injEq, Except.ok.injEq,
      Option.some.injEq] at h
    obtain ⟨rfl, -⟩ := h
    refine ⟨form, rfl, ?_⟩
    rintro i rfl
    exact Operand.Arm.width_of_classify (congrArg Prod.fst hclassify)

theorem not_isWithoutField_of_read_arm :
    ∀ x ∈ (arm.read token fallback).2, x.isWithoutField = false := by
  have halternatives (core : String) : arm.alternatives core = .ok [core] := rfl
  simp only [read, halternatives, forms_arm]
  generalize String.ofList (arm.takeShift (Operand.peel token).core).2 = core
  have hclassified : ∀ x ∈ (Operand.Arm.classify core).2, x.isWithoutField = false :=
    Operand.Arm.not_isWithoutField_of_classify
  rcases hclassify : Operand.Arm.classify core with ⟨_ | _ | form, ds₀⟩
  all_goals rw [hclassify] at hclassified
  · exact hclassified
  · simpa [Diagnostic.isWithoutField, or_imp, forall_and] using hclassified
  · simp only [List.cons_ne_nil, dite_false, List.mem_append]
    rintro x (hx | hx)
    · exact hclassified x hx
    · obtain ⟨-, rfl⟩ : _ ∧ x = .implicitEncoded token := by simpa using hx
      rfl

end Grammar

namespace BitTemplate

variable {t : BitTemplate}

theorem mem_names {name : String} : name ∈ t.names ↔ ∃ f ∈ t.fields, f.name? = some name := by
  have hfold (names found : List String) :
      name ∈ found.foldl (fun ns n => if n ∈ ns then ns else ns ++ [n]) names ↔
        name ∈ names ∨ name ∈ found := by
    induction found generalizing names with
    | nil => simp
    | cons n found ih =>
        rw [List.foldl_cons, ih, List.mem_cons]
        split
        · next hn =>
          constructor
          · exact fun h => h.imp_right .inr
          · rintro (h | rfl | h)
            · exact .inl h
            · exact .inl hn
            · exact .inr h
        · rw [List.mem_append, List.mem_singleton, or_assoc]
  rw [names, hfold, List.mem_filterMap]
  simp

theorem not_isWithoutField_of_readSegment (opcode : String) (segment : List Char) :
    ∀ x ∈ (readSegment opcode segment).2, x.isWithoutField = false := by
  unfold readSegment
  split
  · simp
  · rcases hsuffix : takeSuffix? (unquoted segment) with _ | ⟨name, suffix⟩
    · simp only [readNamed, hsuffix]
      split <;> simp [Diagnostic.isWithoutField]
    · cases suffix with
      | slice first last =>
          have hrange : ∀ x ∈ (if first < last then
                [Diagnostic.reversedBitRange (String.ofList (unquoted segment)) opcode]
              else []), x.isWithoutField = false := by
            split <;> simp [Diagnostic.isWithoutField]
          simp only [readNamed, hsuffix]
          split
          · exact List.forall_mem_append.mpr ⟨hrange, by simp [Diagnostic.isWithoutField]⟩
          · exact hrange
      | bit n | width n =>
          simp only [readNamed, hsuffix]
          split <;> simp [Diagnostic.isWithoutField]

theorem not_isWithoutField_of_read (text encoding : String) :
    ∀ x ∈ (read text encoding).2, x.isWithoutField = false := by
  intro x hx
  simp only [read, List.mem_append, List.mem_flatMap, List.mem_map] at hx
  rcases hx with (⟨_, ⟨segment, -, rfl⟩, hx⟩ | hx) | hx
  · exact not_isWithoutField_of_readSegment text segment x hx
  · rw [mixedReports, List.mem_mergeSort] at hx
    obtain ⟨name, -, rfl⟩ := List.mem_map.mp hx
    rfl
  · split at hx
    · contradiction
    · obtain rfl := List.mem_singleton.mp hx
      rfl

theorem expectedWidth_eq (encoding : String) :
    expectedWidth encoding = if encoding = "T16" then 16 else 32 := by
  unfold expectedWidth wordSize?
  split <;> simp_all

/-- Fields of one name are alike where no name is reported. -/
theorem slices_of_mixedReports (h : t.mixedReports = []) :
    ∀ f ∈ t.fields, ∀ g ∈ t.fields, ∀ name, f.name? = some name → g.name? = some name →
      f.content.slice?.isSome = g.content.slice?.isSome := by
  intro f hf g hg name hfname hgname
  have hnames : ∀ n ∈ t.names, t.isSizedAndSliced n = false := by
    have hperm := List.mergeSort_perm _ _ |>.symm.trans (List.Perm.of_eq h)
    simpa using hperm.eq_nil
  have hname := hnames name (mem_names.mpr ⟨f, hf, hfname⟩)
  have hfpart : f ∈ t.parts name := List.mem_filter.mpr ⟨hf, by simpa using hfname⟩
  have hgpart : g ∈ t.parts name := List.mem_filter.mpr ⟨hg, by simpa using hgname⟩
  -- one slice among the parts makes slices of all of them
  have hall (hslice : ∃ part ∈ t.parts name, part.content.slice?.isSome = true) :
      ∀ part ∈ t.parts name, part.content.slice?.isSome = true := by
    simpa [isSizedAndSliced, hslice] using hname
  cases hfslice : f.content.slice?.isSome with
  | true => exact (hall ⟨f, hfpart, hfslice⟩ g hgpart).symm
  | false =>
      cases hgslice : g.content.slice?.isSome with
      | true => exact (hfslice.symm.trans (hall ⟨g, hgpart, hgslice⟩ f hfpart))
      | false => rfl

theorem read_clean {text encoding : String} (h : read text encoding = (t, [])) :
    t.width = (if encoding = "T16" then 16 else 32) ∧ t.mixedReports = [] := by
  obtain ⟨rfl, hreports⟩ := Prod.mk.inj h
  simp only [List.append_eq_nil_iff, ite_eq_left_iff, reduceCtorEq, imp_false, not_not] at hreports
  exact ⟨hreports.2.trans (expectedWidth_eq encoding), hreports.1.2⟩

end BitTemplate

theorem Assignment.not_isWithoutField {a : Assignment} {x : Diagnostic} (h : a.problem? = some x) :
    x.isWithoutField = false := by
  cases x with
  | immediateWithoutField name opcode =>
      unfold problem? at h
      cases hkind : a.kind
      all_goals grind
  | _ => rfl

theorem Vocabulary.not_isWithoutField_of_read (v : Vocabulary) (s : String) :
    ∀ x ∈ (v.read s).2, x.isWithoutField = false := by
  rw [read_eq]
  intro x hx
  obtain ⟨a, -, ha⟩ := List.mem_filterMap.mp hx
  exact a.not_isWithoutField ha

namespace Record

variable {d : Dictionaries} {t : BitTemplate} {entry : Entry} {aliasOf : String} {r : Record}
  {ds : Diagnostics}

/-- An operand gets the widths of its fields. Without one, an immediate keeps the width that it
is read with. -/
theorem complete_eq_widened {op : Operand} {form : Form} (hform : op.forms = [form])
    (hwidth : ∀ i, form = .immediate i → i.width = 0) : complete (.bits t) op = op.widened t := by
  cases form with
  | immediate i =>
      have himmediate : op.immediate? = some i := by
        simp [Operand.immediate?, hform, Form.immediate?]
      simp only [complete, himmediate]
      split
      · next hzero =>
        refine (Operand.widened_eq_self ?_).symm
        rw [hform, List.map_singleton, Form.widened, hzero, Int.natCast_zero, ← hwidth i rfl]
      · simp only [Operand.withImmediateWidth, Operand.widened, hform, List.map_singleton]
        rfl
  | _ =>
      have hnone : op.immediate? = none := by
        simp [Operand.immediate?, hform, Form.immediate?]
      simp only [complete, hnone]
      refine (Operand.widened_eq_self ?_).symm
      rw [hform]
      rfl

/-- What is read of an operand list of ARM. -/
theorem forms_of_readOperands_arm (harm : d.dialect = .arm) {s : String} {operands : List Operand}
    {decorations : List (String × Setting)} {ds : List Diagnostic}
    (h : readOperands d s = (.ok (operands, decorations), ds)) :
    decorations = [] ∧ (∀ op ∈ operands, ∃ form, op.forms = [form]) ∧
      (∀ t, operands.map (complete (.bits t)) = operands.map (Operand.widened t)) ∧
        ∀ x ∈ ds, x.isWithoutField = false := by
  obtain ⟨tokens, -, hread⟩ := readTokens_of_readOperands h
  obtain ⟨readings, hreadings, rfl, rfl⟩ := exists_readings hread
  have hgrammar : Grammar.ofDialect d = .arm := by rw [Grammar.ofDialect, harm]
  have hplace : ∀ r ∈ readings, ∃ token fallback,
      Grammar.arm.read token fallback = (.ok r.operand?, r.reports) := by
    intro r hr
    obtain ⟨place, hreads⟩ := exists_reads hreadings hr
    rw [Reads, hgrammar] at hreads
    exact ⟨_, _, hreads⟩
  have hforms : ∀ op ∈ readings.filterMap (·.operand?), ∃ form, op.forms = [form] ∧
      ∀ i, form = .immediate i → i.width = 0 := by
    intro op hop
    obtain ⟨r, hr, hfound⟩ := List.mem_filterMap.mp hop
    obtain ⟨token, fallback, hread⟩ := hplace r hr
    exact Grammar.forms_of_read_arm (hfound ▸ hread)
  refine ⟨?_, fun op hop => ?_, fun t => List.map_congr_left fun op hop => ?_, fun x hx => ?_⟩
  · simp only [readOperands, harm] at h
    rcases hlist : readList d s with ⟨_ | ops, reports⟩
    · simp [hlist, Except.map] at h
    · simp only [hlist, Except.map, Prod.mk.injEq, Except.ok.injEq] at h
      exact h.1.2.symm
  · obtain ⟨form, hform, -⟩ := hforms op hop
    exact ⟨form, hform⟩
  · obtain ⟨form, hform, hwidth⟩ := hforms op hop
    exact complete_eq_widened hform hwidth
  · obtain ⟨r, hr, hx⟩ := List.mem_flatMap.mp hx
    obtain ⟨token, fallback, hread⟩ := hplace r hr
    have hreports : ∀ x ∈ (Grammar.arm.read token fallback).2, x.isWithoutField = false :=
      Grammar.not_isWithoutField_of_read_arm
    rw [hread] at hreports
    exact hreports x hx

theorem countP_armProblems (operands : List Operand) (text : String) :
    (armProblems operands t text).countP Diagnostic.isWithoutField =
      operands.countP (Operand.lacksField t) := by
  induction operands with
  | nil => rfl
  | cons op operands ih =>
      unfold armProblems at ih ⊢
      rw [List.countP_cons, ← ih]
      cases himmediate : op.immediate? with
      | none => simp [Operand.lacksField, himmediate]
      | some i =>
          cases hfield : t.hasField i.name <;>
            simp [Operand.lacksField, himmediate, hfield, Diagnostic.isWithoutField, List.countP_cons]

/-- The one form of an operand is the immediate that is looked at. -/
theorem hasField_of_armProblems {operands : List Operand} {text : String}
    (h : armProblems operands t text = []) {op : Operand} (hop : op ∈ operands) {i : ImmediateForm}
    (hforms : op.forms = [.immediate i]) : t.hasField i.name = true := by
  have hnone : ∀ op ∈ operands, ¬op.lacksField t = true := by
    rw [← List.countP_eq_zero, ← countP_armProblems operands text, h, List.countP_nil]
  simpa [Operand.lacksField, Operand.immediate?, hforms, Form.immediate?] using hnone op hop

/-- What a record of ARM with the opcode `t` is put together from. -/
theorem exists_of_read_arm [Capacity] (harm : d.dialect = .arm)
    (h : read d entry aliasOf = (.ok r, ds)) :
    ∃ t parsed ds₀ ds₁, readOperands d entry.operands = (.ok (parsed, []), ds₀) ∧
      BitTemplate.read entry.opcode r.encoding = (t, ds₁) ∧ r.opcode = .bits t ∧
      (∀ op ∈ parsed, ∃ form, op.forms = [form]) ∧ r.operands = parsed.map (Operand.widened t) ∧
      (∀ x ∈ ds₀, x.isWithoutField = false) ∧
      r.diagnostics.entries = ds₀ ++ ds₁ ++ ((Vocabulary.ofDialect d).read entry.metadata).2 ++
        armProblems r.operands t entry.opcode := by
  obtain ⟨operands, decorations, opcode, ds₀, ds₁, hoperands, hopcode, rfl, -⟩ :=
    read_eq_ok_iff.mp h
  obtain ⟨rfl, hforms, hwidened, hclean⟩ := forms_of_readOperands_arm harm hoperands
  rw [harm] at hopcode
  obtain ⟨t, rfl, htemplate⟩ := Dialect.exists_of_readOpcode_arm hopcode
  rw [← harm] at htemplate
  refine ⟨t, operands, ds₀, ds₁, hoperands, htemplate, rfl, hforms, hwidened t, hclean, ?_⟩
  simp only [assemble, problems, decorate, List.foldl_nil, List.append_nil]

/-- Operands and opcode of a record of ARM agree on the immediates: their widths are those of
the fields, and otherwise the operands are as they were read. The immediates without a field
are reported one by one, and a record without reports agrees with itself. -/
theorem fields_of_read [Capacity] (harm : d.dialect = .arm)
    (h : read d entry aliasOf = (.ok r, ds)) :
    ∃ t parsed ds₀, r.opcode = .bits t ∧ readOperands d entry.operands = (.ok (parsed, []), ds₀) ∧
      r.operands = parsed.map (Operand.widened t) ∧
      (∀ op ∈ r.operands, ∀ i, .immediate i ∈ op.forms → i.width = (t.fieldWidth i.name : Int)) ∧
      r.diagnostics.entries.countP Diagnostic.isWithoutField =
        r.operands.countP (Operand.lacksField t) ∧
      (r.invalid = 0 → r.Fitting t) := by
  obtain ⟨t, parsed, ds₀, ds₁, hparsed, htemplate, hopcode, hforms, hoperands, hclean, hentries⟩ :=
    exists_of_read_arm harm h
  have hcount : r.diagnostics.entries.countP Diagnostic.isWithoutField =
      r.operands.countP (Operand.lacksField t) := by
    have htemplates := BitTemplate.not_isWithoutField_of_read entry.opcode r.encoding
    have hmetadata := (Vocabulary.ofDialect d).not_isWithoutField_of_read entry.metadata
    rw [htemplate] at htemplates
    have hzero {reports : List Diagnostic} (h : ∀ x ∈ reports, x.isWithoutField = false) :
        reports.countP Diagnostic.isWithoutField = 0 :=
      List.countP_eq_zero.mpr fun x hx => by simp [h x hx]
    rw [hentries, List.countP_append, List.countP_append, List.countP_append, hzero hclean,
      hzero htemplates, hzero hmetadata, countP_armProblems, Nat.zero_add]
  refine ⟨t, parsed, ds₀, hopcode, hparsed, hoperands, ?widths, hcount, fun hvalid => ?valid⟩
  case widths =>
    intro op hop i hi
    rw [hoperands] at hop
    obtain ⟨before, -, rfl⟩ := List.mem_map.mp hop
    obtain ⟨form, -, hform⟩ := List.mem_map.mp hi
    cases form with
    | immediate j =>
        obtain rfl := Form.immediate.inj hform
        rfl
    | _ => cases hform
  case valid =>
    rw [List.length_eq_zero_iff.mp hvalid, eq_comm] at hentries
    simp only [List.append_eq_nil_iff, and_assoc] at hentries
    obtain ⟨rfl, rfl, -, hproblems⟩ := hentries
    obtain ⟨hwidth, hslices⟩ := BitTemplate.read_clean htemplate
    constructor
    case immediates =>
      intro op hop i hi
      obtain ⟨before, hbefore, rfl⟩ := List.mem_map.mp (hoperands ▸ hop)
      obtain ⟨form, hform⟩ := hforms before hbefore
      refine hasField_of_armProblems hproblems hop ?_
      simp only [Operand.widened, hform, List.map_cons, List.map_nil, List.mem_singleton] at hi ⊢
      rw [hi]
    case width => exact hwidth
    case slices => exact BitTemplate.slices_of_mixedReports hslices
    case implicit =>
      intro op hop himplicit form hform
      obtain ⟨before, hbefore, rfl⟩ := List.mem_map.mp (hoperands ▸ hop)
      obtain ⟨read, hread, rfl⟩ := List.mem_map.mp hform
      rw [Form.isMemoryOrEncoded_widened]
      exact not_isMemoryOrEncoded_of_readOperands hparsed before hbefore himplicit read hread

theorem fields_of_read_adc :
    let d : Dictionaries := { dialect := .arm }
    let entry : Entry := ⟨"adc", "Rd, Rn, #ImmC", "T32",
      "11110|ImmC[11]|01010|S|Rn|0|ImmC[10:8]|Rd|ImmC[7:0]", ""⟩
    ∃ r ds, read d entry "" = (.ok r, ds) ∧ r.invalid = 0 ∧
      ∃ t, r.opcode = .bits t ∧ t.fieldWidth "ImmC" = 12 ∧ r.Fitting t := by
  intro d entry
  obtain ⟨r, ds, hread, hfacts⟩ : ∃ r ds, read d entry "" = (.ok r, ds) ∧
      (r.invalid, r.opcode.bits?.map (·.fieldWidth "ImmC")) = (0, some 12) :=
    exists_of_map_toOption (by decide +kernel)
  obtain ⟨hvalid, hwidth⟩ := Prod.mk.inj hfacts
  obtain ⟨t, -, -, hopcode, -, -, -, -, hfitting⟩ := fields_of_read rfl hread
  rw [hopcode] at hwidth
  exact ⟨r, ds, hread, hvalid, t, hopcode, Option.some.inj hwidth, hfitting hvalid⟩

end Record

end InstrTable
