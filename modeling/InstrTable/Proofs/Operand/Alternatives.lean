import InstrTable.Proofs.Operand.Core

/-!
The alternatives of an x86 operand. Each of them is classified on its own, and what is read of
a token are the forms and the reports of its alternatives, in their order. A form has the name
that its alternative has without a segment, and keeps the segment if it can use one.
-/

namespace InstrTable

theorem forall₂_filterMap {α β : Type} {f : α → Option β} {xs : List α}
    (h : ∀ x ∈ xs, (f x).isSome = true) :
    List.Forall₂ (fun x y => f x = some y) xs (xs.filterMap f) := by
  induction xs with
  | nil => exact .nil
  | cons x xs ih =>
      obtain ⟨y, hy⟩ := Option.isSome_iff_exists.mp (h x List.mem_cons_self)
      rw [List.filterMap_cons_some hy]
      exact .cons hy (ih fun x' hx' => h x' (List.mem_cons_of_mem x hx'))

theorem forall₂_iff_of_forall₂ {α β : Type} {P Q : α → β → Prop} {xs : List α} {ys : List β}
    (h : List.Forall₂ (fun x y => P x y ↔ Q x y) xs ys) :
    List.Forall₂ P xs ys ↔ List.Forall₂ Q xs ys := by
  induction h with
  | nil => simp
  | cons hiff _ ih => rw [List.forall₂_cons, List.forall₂_cons, hiff, ih]

namespace Form

/-- The segment that a form keeps. -/
def segment : Form → String
  | .register r => r.segment
  | .memory m => m.segment
  | _ => ""

/-- A form as it is written: its name, behind its segment if it has one. -/
def spelling (f : Form) : String :=
  if f.segment = "" then f.name else f.segment ++ ":" ++ f.name

end Form

namespace Operand.X86

/-- `alt` is `rest` behind the override `segment`. -/
def Overrides (alt segment rest : String) : Prop :=
  segment ∈ ["ds", "es"] ∧ alt = segment ++ ":" ++ rest

variable {registers : Keyed Register} {alt : String} {form : Form}

/-- An override is taken off if there is one. -/
theorem takeSegment_cases (alt : String) :
    Overrides alt (takeSegment alt).1 (takeSegment alt).2 ∨
      (∀ segment rest, ¬Overrides alt segment rest) ∧ takeSegment alt = ("", alt) := by
  unfold takeSegment
  split
  · next rest halt =>
    refine .inl ⟨by simp, String.toList_injective ?_⟩
    simp [halt]
  · next rest halt =>
    refine .inl ⟨by simp, String.toList_injective ?_⟩
    simp [halt]
  · next hds hes =>
    refine .inr ⟨?_, rfl⟩
    rintro segment rest ⟨hsegment, rfl⟩
    obtain rfl | rfl : segment = "ds" ∨ segment = "es" := by simpa using hsegment
    · exact hds rest.toList (by simp)
    · exact hes rest.toList (by simp)

/-- Whether an alternative is written with an override. -/
def HasOverride (alt : String) : Prop := ∃ segment rest, Overrides alt segment rest

theorem Overrides.segment_ne_empty {segment rest : String} (h : Overrides alt segment rest) :
    segment ≠ "" := by
  rintro rfl
  exact absurd h.1 (by decide)

theorem Overrides.ne_rest {segment rest : String} (h : Overrides alt segment rest) :
    alt ≠ rest := by
  intro heq
  have hlength := congrArg String.length (heq.symm.trans h.2)
  simp at hlength

theorem of_memory? {segment : String} {m : MemoryForm} (h : memory? segment alt = some m) :
    m.name = alt ∧ m.segment = segment := by
  unfold memory? at h
  split at h
  · obtain rfl := Option.some.inj h
    exact ⟨rfl, rfl⟩
  · rcases Option.or_eq_some_iff.mp h with h | ⟨-, h⟩
    · unfold sizedMemory? at h
      split at h
      · obtain ⟨-, h⟩ := Option.ite_none_right_eq_some.mp h
        obtain ⟨size, -, rfl⟩ := Option.map_eq_some_iff.mp h
        exact ⟨rfl, rfl⟩
      · contradiction
    · unfold vectorMemory? at h
      split at h
      · split at h
        · obtain ⟨-, h⟩ := Option.ite_none_right_eq_some.mp h
          obtain ⟨size, -, rfl⟩ := Option.map_eq_some_iff.mp h
          exact ⟨rfl, rfl⟩
        · contradiction
      · contradiction

theorem of_immediate? {i : ImmediateForm} (h : immediate? alt = some i) :
    i.name = alt ∧ i.literal = if alt = "1" then some 1 else none := by
  obtain ⟨-, h⟩ := Option.ite_none_right_eq_some.mp h
  obtain ⟨width, -, rfl⟩ := Option.map_eq_some_iff.mp h
  exact ⟨rfl, rfl⟩

theorem of_relative? {r : RelativeForm} (h : relative? alt = some r) : r.name = alt := by
  unfold relative? at h
  split at h
  · obtain ⟨-, h⟩ := Option.ite_none_right_eq_some.mp h
    obtain rfl := Option.some.inj h
    rfl
  · contradiction

/-- An alternative is a register, or else memory, or else an immediate, or else a relative
target. -/
theorem form?_cases (h : form? registers alt = some form) :
    (∃ r : RegisterForm, form = .register r ∧ r.name = (takeSegment alt).2 ∧
        r.segment = (takeSegment alt).1) ∨
      (∃ m, form = .memory m ∧ memory? (takeSegment alt).1 (takeSegment alt).2 = some m) ∨
      (∃ i, form = .immediate i ∧ immediate? (takeSegment alt).2 = some i) ∨
      ∃ r, form = .relative r ∧ relative? (takeSegment alt).2 = some r := by
  unfold form? at h
  simp only at h
  split at h
  · obtain rfl := Option.some.inj h
    exact .inl ⟨_, rfl, rfl, rfl⟩
  · rcases Option.or_eq_some_iff.mp h with h | ⟨-, h⟩
    · obtain ⟨m, hm, rfl⟩ := Option.map_eq_some_iff.mp h
      exact .inr (.inl ⟨m, rfl, hm⟩)
    · rcases Option.or_eq_some_iff.mp h with h | ⟨-, h⟩
      · obtain ⟨i, hi, rfl⟩ := Option.map_eq_some_iff.mp h
        exact .inr (.inr (.inl ⟨i, rfl, hi⟩))
      · obtain ⟨r, hr, rfl⟩ := Option.map_eq_some_iff.mp h
        exact .inr (.inr (.inr ⟨r, rfl, hr⟩))

theorem name_of_form? (h : form? registers alt = some form) :
    form.name = (takeSegment alt).2 := by
  rcases form?_cases h with ⟨r, rfl, hname, -⟩ | ⟨m, rfl, hm⟩ | ⟨i, rfl, hi⟩ | ⟨r, rfl, hr⟩
  · exact hname
  · exact (of_memory? hm).1
  · exact (of_immediate? hi).1
  · exact of_relative? hr

/-- A segment is kept by registers and memory. -/
theorem segment_of_form? (h : form? registers alt = some form) :
    form.segment = if form.isAccessed then (takeSegment alt).1 else "" := by
  rcases form?_cases h with ⟨r, rfl, -, hsegment⟩ | ⟨m, rfl, hm⟩ | ⟨i, rfl, -⟩ | ⟨r, rfl, -⟩
  · exact hsegment
  · exact (of_memory? hm).2
  · rfl
  · rfl

/-- The one literal is `1`. -/
theorem literal_of_form? (h : form? registers alt = some form) (hliteral : form.isLiteral = true) :
    ∃ i, form = .immediate i ∧ i.name = "1" ∧ i.literal = some 1 := by
  rcases form?_cases h with ⟨r, rfl, -⟩ | ⟨m, rfl, -⟩ | ⟨i, rfl, hi⟩ | ⟨r, rfl, -⟩
  · contradiction
  · contradiction
  · obtain ⟨hname, hvalue⟩ := of_immediate? hi
    have hone : (takeSegment alt).2 = "1" := by
      by_contra hne
      rw [if_neg hne] at hvalue
      simp [Form.isLiteral, hvalue] at hliteral
    exact ⟨i, rfl, hname.trans hone, by rw [hvalue, if_pos hone]⟩
  · contradiction

/-- `alt` is written for a form: as its name, behind a segment if one is written. -/
def Spells (alt : String) (form : Form) : Prop :=
  alt = form.name ∨ ∃ segment, Overrides alt segment form.name

theorem spells_of_form? (h : form? registers alt = some form) : Spells alt form := by
  have hname := name_of_form? h
  rcases takeSegment_cases alt with hoverrides | ⟨-, htake⟩
  · exact .inr ⟨_, hname ▸ hoverrides⟩
  · exact .inl (by rw [hname, htake])

/-- A form is spelled as its alternative unless it has no use for the segment there. -/
theorem eq_spelling_iff (h : form? registers alt = some form) :
    alt = form.spelling ↔ (HasOverride alt → form.isAccessed = true) := by
  have hname := name_of_form? h
  have hsegment := segment_of_form? h
  rcases takeSegment_cases alt with hoverrides | ⟨hnone, htake⟩
  · have hwritten : HasOverride alt := ⟨_, _, hoverrides⟩
    by_cases haccessed : form.isAccessed = true
    · rw [if_pos haccessed] at hsegment
      have hspelling : form.spelling = alt := by
        rw [Form.spelling, hsegment, if_neg hoverrides.segment_ne_empty, hname, ← hoverrides.2]
      simp [hspelling, haccessed]
    · rw [if_neg haccessed] at hsegment
      have hspelling : form.spelling = (takeSegment alt).2 := by
        rw [Form.spelling, if_pos hsegment, hname]
      rw [hspelling]
      exact iff_of_false hoverrides.ne_rest fun himp => haccessed (himp hwritten)
  · have hunwritten : ¬HasOverride alt := fun ⟨segment, rest, hother⟩ => hnone segment rest hother
    have hempty : form.segment = "" := by
      rw [hsegment, htake, ite_self]
    have hspelling : form.spelling = alt := by
      rw [Form.spelling, if_pos hempty, hname, htake]
    simp [hspelling, hunwritten]

end Operand.X86

namespace Grammar

open Operand.X86 (form? HasOverride Spells spells_of_form? eq_spelling_iff)

variable {registers : Keyed Register} {token : String} {fallback : Option Access}

theorem forms_x86 (alts : List String) :
    (x86 registers).forms token alts =
      (.ok (alts.filterMap (form? registers)),
        (alts.filter fun alt => (form? registers alt).isNone).map (.unknownOperand · token)) := by
  induction alts with
  | nil => rfl
  | cons alt alts ih =>
      have hclassify : (x86 registers).classify alt = (.ok (form? registers alt), []) := rfl
      rw [forms, hclassify, ih]
      cases hform : form? registers alt with
      | none => simp [hform]
      | some form => simp [hform, Except.map]

/-- What is read of a token of x86 as the alternatives `alts`: the forms of those that have one,
and a report of each that has none. At the end it may be reported that the operand is implicit
and has bits of its own. -/
structure ReadsAs (registers : Keyed Register) (token : String) (alts : List String)
    (r : TokenReading) : Prop where
  forms : (r.operand?.map Operand.forms).getD [] = alts.filterMap (form? registers)
  reports : r.reports =
    (alts.filter fun alt => (form? registers alt).isNone).map (.unknownOperand · token) ++
      if r.operand?.any fun op => op.implicit && op.forms.any Form.isMemoryOrEncoded then
        [.implicitEncoded token]
      else []

/-- A token of x86 is read as the alternatives of its core, if this can be divided. -/
theorem read_x86_cases (registers : Keyed Register) (token : String) (fallback : Option Access) :
    (∃ e, splitTopLevel (some '/') ((x86 registers).coreOf token) = .error e ∧
        (x86 registers).read token fallback = (.error e, [])) ∨
      ∃ alts r, splitTopLevel (some '/') ((x86 registers).coreOf token) = .ok alts ∧
        (x86 registers).read token fallback = (.ok r.operand?, r.reports) ∧
        ReadsAs registers token alts r ∧
        ∀ op, r.operand? = some op → op.text = (x86 registers).coreOf token ∧
          op.implicit = ((Operand.peel token).implicit || op.forms.any Form.isLiteral) ∧
          op.optional = (Operand.peel token).optional := by
  rw [read, coreOf]
  generalize Operand.peel token = p
  have hshift : (x86 registers).takeShift p.core = ("", p.core) := rfl
  have halternatives : (x86 registers).alternatives = splitTopLevel (some '/') := rfl
  simp only [hshift, halternatives, forms_x86]
  generalize String.ofList p.core = core
  cases splitTopLevel (some '/') core with
  | error e => exact .inl ⟨e, rfl, rfl⟩
  | ok alts =>
      right
      simp only
      split
      · next hforms =>
        refine ⟨alts, ⟨none, _⟩, rfl, rfl, ⟨hforms.symm, ?_⟩, ?_⟩
        · simp
        · intro op hop
          contradiction
      · next hforms =>
        refine ⟨alts, ⟨some _, _⟩, rfl, rfl, ⟨rfl, rfl⟩, ?_⟩
        intro op hop
        obtain rfl := Option.some.inj hop
        exact ⟨rfl, rfl, rfl⟩

/-- Where nothing is reported, every alternative has its form. -/
theorem exists_alternatives {op : Operand}
    (h : (x86 registers).read token fallback = (.ok (some op), [])) :
    ∃ alts, splitTopLevel (some '/') op.text = .ok alts ∧
      List.Forall₂ (fun alt form => form? registers alt = some form) alts op.forms := by
  rcases read_x86_cases registers token fallback with ⟨e, -, hread⟩ |
    ⟨alts, r, hsplit, hread, hreads, htext⟩
  · simp [hread] at h
  · rw [hread] at h
    obtain ⟨hoperand, hreports⟩ : r.operand? = some op ∧ r.reports = [] := by simpa using h
    have hforms : op.forms = alts.filterMap (form? registers) := by
      simpa [hoperand] using hreads.forms
    have hknown : ∀ alt ∈ alts, (form? registers alt).isSome = true := by
      have hnone := (List.append_eq_nil_iff.mp (hreads.reports.symm.trans hreports)).1
      simpa [List.filter_eq_nil_iff, Option.isSome_iff_ne_none] using hnone
    refine ⟨alts, (htext op hoperand).1 ▸ hsplit, ?_⟩
    rw [hforms]
    exact forall₂_filterMap hknown

/-- An operand of x86 that is read without a report has a form for each of its alternatives, in
their order. The alternatives are the forms as they are written, unless one of them has a
segment in front of an immediate or a relative target, which is lost. -/
theorem spelled_back_iff {op : Operand}
    (h : (x86 registers).read token fallback = (.ok (some op), [])) :
    ∃ alts, splitTopLevel (some '/') op.text = .ok alts ∧ List.Forall₂ Spells alts op.forms ∧
      (alts = op.forms.map Form.spelling ↔
        List.Forall₂ (fun alt form => HasOverride alt → form.isAccessed = true) alts op.forms) := by
  obtain ⟨alts, hsplit, hforms⟩ := exists_alternatives h
  refine ⟨alts, hsplit, hforms.imp fun alt form => spells_of_form?, ?_⟩
  rw [← List.forall₂_eq_eq_eq, List.forall₂_map_right_iff]
  exact forall₂_iff_of_forall₂ (hforms.imp fun alt form => eq_spelling_iff)

theorem spelled_back_iff_string_source :
    let registers : Keyed Register := Keyed.empty.insert "zsi" ⟨.text "rz", .text "gp", some 6⟩
    let op : Operand := {
      text := "ds:zsi/m32", access := some .write, forms_ne_nil := List.cons_ne_nil _ _
      forms := [.register { name := "zsi", kind := "rz", index := some 6, segment := "ds" },
        .memory { name := "m32", size := 32 }] }
    (x86 registers).read "W:ds:zsi/m32" (some .read) = (.ok (some op), []) ∧
      List.Forall₂ Spells ["ds:zsi", "m32"] op.forms ∧
      ["ds:zsi", "m32"] = op.forms.map Form.spelling := by
  intro registers op
  have hread : (x86 registers).read "W:ds:zsi/m32" (some .read) = (.ok (some op), []) := by
    decide +kernel
  have hsplit : splitTopLevel (some '/') op.text = .ok ["ds:zsi", "m32"] := by decide +kernel
  obtain ⟨alts, halts, hspells, hspelling⟩ := spelled_back_iff hread
  obtain rfl := Except.ok.inj (halts.symm.trans hsplit)
  refine ⟨hread, hspells, hspelling.mpr ?_⟩
  exact .cons (fun _ => rfl) (.cons (fun _ => rfl) .nil)

/-- A segment in front of an immediate is lost, and nothing is reported. -/
theorem segment_of_immediate_lost :
    let op : Operand := {
      text := "ds:ib", forms_ne_nil := List.cons_ne_nil _ _
      forms := [.immediate { name := "ib", width := 8 }] }
    (x86 .empty).read "ds:ib" (some .readWrite) = (.ok (some op), []) ∧
      splitTopLevel (some '/') op.text = .ok ["ds:ib"] ∧ op.forms.map Form.spelling = ["ib"] := by
  decide +kernel

end Grammar

end InstrTable
