import InstrTable.Proofs.Operand.Alternatives
import InstrTable.Proofs.Text.Words
import Mathlib.Algebra.BigOperators.Group.List.Basic
import Mathlib.Algebra.Ring.Nat

/-!
When the brackets at the ends of a core are taken for a pair. They are if they are of one kind,
whether or not the first is closed by the last. What is read of a token tells if they were
taken off: apart from slashes, blanks and segments, all of the core is found again in the names
of the forms and in the reports.
-/

namespace InstrTable

namespace Text

variable {c sep : Char}

theorem count_joined (h : c ≠ sep) (ps : List (List Char)) :
    (joined sep ps).count c = (ps.map (List.count c)).sum := by
  induction ps with
  | nil => rfl
  | cons p ps ih =>
      cases ps with
      | nil => simp [joined]
      | cons q ps =>
          rw [joined, List.count_append, List.count_cons_of_ne (Ne.symm h), ih]
          rfl

theorem count_trimStart (h : isBlank c = false) (cs : List Char) :
    (trimStart cs).count c = cs.count c := by
  induction cs with
  | nil => rfl
  | cons d cs ih =>
      rw [trimStart_cons]
      split
      · next hd =>
        have hne : d ≠ c := by
          rintro rfl
          rw [hd] at h
          contradiction
        rw [ih, List.count_cons_of_ne hne]
      · rfl

theorem count_trim (h : isBlank c = false) (cs : List Char) : (trim cs).count c = cs.count c := by
  rw [trim, trimEnd, List.count_reverse, count_trimStart h, List.count_reverse, count_trimStart h]

end Text

open TopLevel in
/-- Splitting takes away but separators and blanks. -/
theorem count_splitTopLevel {c sep : Char} (hsep : c ≠ sep) (hblank : Text.isBlank c = false)
    {s : String} {parts : List String} (h : splitTopLevel (some sep) s = .ok parts) :
    (parts.map (·.toList.count c)).sum = s.toList.count c := by
  have htrimmed : (trimmed s).toList.count c = s.toList.count c := by
    rw [trimmed, String.toList_ofList, Text.count_trim hblank]
  have hsplits := splits_splitTopLevel sep s
  rw [h] at hsplits
  rw [← htrimmed]
  generalize trimmed s = u at hsplits
  cases hsplits with
  | empty => rfl
  | @pieces _ as _ hreads _ =>
      have hjoined := hreads.joined_runTexts rfl
      rw [List.drop_zero] at hjoined
      rw [← hjoined, Text.count_joined hsep, List.map_map]
      refine congrArg List.sum (List.map_congr_left fun run _ => ?_)
      simp [trimmed, Text.count_trim hblank]

namespace Operand

variable {c : Char}

/-- A bracket that a core may be wrapped in separates no alternatives, is no blank, and stands in
no override. -/
theorem of_mem_brackets (hc : c ∈ ['<', '{']) :
    c ≠ '/' ∧ Text.isBlank c = false ∧ c ∉ "ds:".toList ∧ c ∉ "es:".toList := by
  obtain rfl | rfl : c = '<' ∨ c = '{' := by simpa using hc
  · decide
  · decide

theorem X86.count_takeSegment (hc : c ∈ ['<', '{']) (alt : String) :
    (X86.takeSegment alt).2.toList.count c = alt.toList.count c := by
  obtain ⟨-, -, hds, hes⟩ := of_mem_brackets hc
  rcases X86.takeSegment_cases alt with ⟨hsegment, halt⟩ | ⟨-, htake⟩
  · have hnone : ((X86.takeSegment alt).1 ++ ":").toList.count c = 0 := by
      rw [List.count_eq_zero]
      rcases List.mem_pair.mp hsegment with h | h
      · rwa [h]
      · rwa [h]
    conv_rhs => rw [halt, String.toList_append, List.count_append, hnone, Nat.zero_add]
  · rw [htake]

/-- Whether two brackets of one kind stand at the ends of a core. -/
def IsWrapped (core : List Char) : Prop :=
  ∃ inner, TakesBrackets '<' '>' core inner ∨ TakesBrackets '{' '}' core inner

section peel

variable {token : String} {unmarked core : List Char}
  (access : Removes TakesAccess (Text.trim token.toList) unmarked)
  (broadcast : Removes TakesBroadcast unmarked core)
include access broadcast

/-- Without brackets around it a core stays as it is. -/
theorem peel_of_not_isWrapped (h : ¬IsWrapped core) :
    (peel token).core = core ∧ (peel token).implicit = false ∧ (peel token).optional = false := by
  have hangled : inside? '<' '>' core = none := Option.eq_none_iff_forall_ne_some.mpr
    fun inner hinner => h ⟨inner, .inl (inside?_iff.mp hinner)⟩
  have hbraced : inside? '{' '}' core = none := Option.eq_none_iff_forall_ne_some.mpr
    fun inner hinner => h ⟨inner, .inr (inside?_iff.mp hinner)⟩
  rw [removes_iff fun _ => takeAccess?_iff] at access
  rw [removes_iff fun _ => takeBroadcast?_iff] at broadcast
  unfold peel
  cases haccess : takeAccess? (Text.trim token.toList)
  all_goals cases hbroadcast : takeBroadcast? unmarked
  all_goals simp_all

theorem count_peel_of_angled {inner : List Char} (h : TakesBrackets '<' '>' core inner) :
    (peel token).core.count '<' < core.count '<' := by
  obtain ⟨unbraced, hoptional⟩ := exists_removes (TakesBrackets '{' '}') inner
  have hinner : unbraced.count '<' = inner.count '<' := by
    rcases hoptional with hbraced | ⟨-, rfl⟩
    · simp [show inner = _ from hbraced]
    · rfl
  rw [core_peel access broadcast (.inl h) hoptional, hinner, show core = _ from h]
  simp

/-- A pair of brackets around a core is taken off. -/
theorem count_peel_of_isWrapped (h : IsWrapped core) :
    ∃ c ∈ ['<', '{'], (peel token).core.count c < core.count c := by
  by_cases hangled : ∃ inner, TakesBrackets '<' '>' core inner
  · obtain ⟨inner, hinner⟩ := hangled
    exact ⟨'<', by decide, count_peel_of_angled access broadcast hinner⟩
  · rw [not_exists] at hangled
    obtain ⟨inner, hinner | hinner⟩ := h
    · exact absurd hinner (hangled inner)
    · refine ⟨'{', by decide, ?_⟩
      rw [core_peel access broadcast (.inr ⟨hangled, rfl⟩) (.inl hinner), show core = _ from hinner]
      simp

end peel

end Operand

namespace Grammar

open Operand.X86 (form? name_of_form? literal_of_form? count_takeSegment)

variable {registers : Keyed Register} {token : String} {c : Char} {alts alts' : List String}
  {fallback : Option Access} {r : TokenReading}

/-- The brackets of the alternatives are those in the names of the forms and in the alternatives
without a form. -/
theorem count_alternatives (registers : Keyed Register) (hc : c ∈ ['<', '{'])
    (alts : List String) :
    ((alts.filterMap (form? registers)).map (·.name.toList.count c)).sum +
        ((alts.filter fun alt => (form? registers alt).isNone).map (·.toList.count c)).sum =
      (alts.map (·.toList.count c)).sum := by
  induction alts with
  | nil => rfl
  | cons alt alts ih =>
      cases hform : form? registers alt with
      | none =>
          simp only [List.filterMap_cons_none hform, List.filter_cons, hform, Option.isNone_none,
            if_true, List.map_cons, List.sum_cons]
          omega
      | some form =>
          have hname : form.name.toList.count c = alt.toList.count c := by
            rw [name_of_form? hform, count_takeSegment hc]
          simp only [List.filterMap_cons_some hform, List.filter_cons, hform, Option.isNone_some,
            Bool.false_eq_true, if_false, List.map_cons, List.sum_cons, hname]
          omega

/-- A token that is read as two lists of alternatives has as many brackets in both. -/
theorem ReadsAs.count_eq (h : ReadsAs registers token alts r) (h' : ReadsAs registers token alts' r)
    (hc : c ∈ ['<', '{']) :
    (alts.map (·.toList.count c)).sum = (alts'.map (·.toList.count c)).sum := by
  have hunknown := List.append_cancel_right (h.reports.symm.trans h'.reports)
  have hinjective : Function.Injective (Diagnostic.unknownOperand · token) := fun _ _ heq =>
    (Diagnostic.unknownOperand.inj heq).1
  rw [← count_alternatives registers hc alts, ← count_alternatives registers hc alts',
    h.forms.symm.trans h'.forms, List.map_injective_iff.mpr hinjective hunknown]

theorem coreOf_x86 (registers : Keyed Register) (token : String) :
    (x86 registers).coreOf token = String.ofList (Operand.peel token).core := by
  have hshift (cs : List Char) : (x86 registers).takeShift cs = ("", cs) := rfl
  rw [coreOf, hshift]

/-- A token of x86 is read as the alternatives of its core, and is optional in no case and
implicit in that of a literal only, unless two brackets of one kind stand at the ends of the
core. Those are taken for a pair, even if they belong to different alternatives. -/
theorem reads_alternatives_iff {unmarked core : List Char} {parts : List String}
    (access : Removes Operand.TakesAccess (Text.trim token.toList) unmarked)
    (broadcast : Removes Operand.TakesBroadcast unmarked core)
    (split : splitTopLevel (some '/') (String.ofList core) = .ok parts) :
    (∃ r : TokenReading,
      (x86 registers).read token fallback = (.ok r.operand?, r.reports) ∧
      ReadsAs registers token parts r ∧
      ∀ op, r.operand? = some op → op.optional = false ∧
        (op.implicit = true →
          ∃ i, Form.immediate i ∈ op.forms ∧ i.name = "1" ∧ i.literal = some 1)) ↔
      ¬Operand.IsWrapped core := by
  constructor
  · -- a bracket that is taken off is in no name and in no report
    rintro ⟨r, hread, hreads, -⟩ hwrapped
    obtain ⟨c, hc, hless⟩ := Operand.count_peel_of_isWrapped access broadcast hwrapped
    obtain ⟨hsep, hblank, -⟩ := Operand.of_mem_brackets hc
    rcases read_x86_cases registers token fallback with ⟨e, -, herror⟩ |
      ⟨alts, r', halts, hread', hreads', -⟩
    · simp [herror] at hread
    · have hsame : r' = r := by
        cases r
        cases r'
        simpa using hread'.symm.trans hread
      rw [coreOf_x86] at halts
      have hcount := (hsame ▸ hreads').count_eq hreads hc
      rw [count_splitTopLevel hsep hblank halts, count_splitTopLevel hsep hblank split,
        String.toList_ofList, String.toList_ofList] at hcount
      omega
  · intro hwrapped
    obtain ⟨hcore, himplicit, hoptional⟩ :=
      Operand.peel_of_not_isWrapped access broadcast hwrapped
    have hcoreOf : (x86 registers).coreOf token = String.ofList core := by rw [coreOf_x86, hcore]
    rcases read_x86_cases registers token fallback with ⟨e, herror, -⟩ |
      ⟨alts, r, halts, hread, hreads, hop⟩
    · simp [hcoreOf, split] at herror
    · rw [hcoreOf, split] at halts
      obtain rfl := Except.ok.inj halts
      refine ⟨r, hread, hreads, fun op hoperand => ?_⟩
      obtain ⟨-, himplicitOp, hoptionalOp⟩ := hop op hoperand
      refine ⟨hoptionalOp.trans hoptional, fun h => ?_⟩
      rw [himplicitOp, himplicit, Bool.false_or, List.any_eq_true] at h
      obtain ⟨form, hform, hliteral⟩ := h
      have hforms : op.forms = parts.filterMap (form? registers) := by
        simpa [hoperand] using hreads.forms
      obtain ⟨alt, -, halt⟩ := List.mem_filterMap.mp (hforms ▸ hform)
      obtain ⟨i, rfl, hname, hvalue⟩ := literal_of_form? halt hliteral
      exact ⟨i, hform, hname, hvalue⟩

theorem reads_alternatives_iff_inner_brackets :
    let registers : Keyed Register := Keyed.empty.insert "r32" ⟨.text "r32", .text "gp", none⟩
    let token := "W:r32/<m32>/1/b16"
    let core := "r32/<m32>/1"
    let op : Operand := {
      text := core, access := some .write, implicit := true, broadcast := 16
      forms_ne_nil := List.cons_ne_nil _ _
      forms := [.register { name := "r32", kind := "r32" },
        .immediate { name := "1", width := 8, literal := some 1 }] }
    Removes Operand.TakesAccess (Text.trim token.toList) (core ++ "/b16").toList ∧
      Removes Operand.TakesBroadcast (core ++ "/b16").toList core.toList ∧
      splitTopLevel (some '/') core = .ok ["r32", "<m32>", "1"] ∧
      (x86 registers).read token (some .read) =
        (.ok (some op), [.unknownOperand "<m32>" token]) ∧
      ReadsAs registers token ["r32", "<m32>", "1"]
        ⟨some op, [.unknownOperand "<m32>" token]⟩ := by
  intro registers token core op
  have access : Removes Operand.TakesAccess (Text.trim token.toList) (core ++ "/b16").toList :=
    .inl ⟨"W:".toList, .whole (by decide), by decide⟩
  have broadcast : Removes Operand.TakesBroadcast (core ++ "/b16").toList core.toList := by
    rw [removes_iff fun _ => Operand.takeBroadcast?_iff]
    decide +kernel
  have split : splitTopLevel (some '/') core = .ok ["r32", "<m32>", "1"] := by decide +kernel
  have hread : (x86 registers).read token (some .read) =
      (.ok (some op), [.unknownOperand "<m32>" token]) := by decide +kernel
  have hwrapped : ¬Operand.IsWrapped core.toList := by
    rintro ⟨inner, h | h⟩ <;> simp [Operand.TakesBrackets, core] at h
  obtain ⟨⟨operand?, reports⟩, hreading, hreads, -⟩ :=
    (reads_alternatives_iff access broadcast (by simpa using split)).mpr hwrapped
  obtain ⟨rfl, rfl⟩ : operand? = some op ∧ reports = [.unknownOperand "<m32>" token] := by
    simpa using hreading.symm.trans hread
  exact ⟨access, broadcast, split, hread, hreads⟩

/-- Brackets of two alternatives are taken for a pair. Without them the first of the two is not
opened, and the last not closed. -/
theorem brackets_of_two_alternatives :
    let token := "<r32>/<m32>"
    Removes Operand.TakesAccess (Text.trim token.toList) token.toList ∧
      Removes Operand.TakesBroadcast token.toList token.toList ∧
      splitTopLevel (some '/') token = .ok ["<r32>", "<m32>"] ∧
      (x86 .empty).read token (some .readWrite) =
        (.error (.unterminated '<' 6 "r32>/<m32"), []) := by
  intro token
  refine ⟨?_, ?_, by decide +kernel, by decide +kernel⟩
  · rw [removes_iff fun _ => Operand.takeAccess?_iff]
    decide +kernel
  · rw [removes_iff fun _ => Operand.takeBroadcast?_iff]
    decide +kernel

end Grammar

end InstrTable
