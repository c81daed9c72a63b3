import InstrTable.Builtin.X86
import InstrTable.Proofs.Metadata.Assignments
import InstrTable.Proofs.Text.Pieces
import Mathlib.Data.List.Forall2

/-!
The words of metadata. What a word asks for is told here by what it is put together from:
a key and a value, a shortcut in the key, and the bars of what the shortcut stands for. A
word can be put together in one way only, so metadata says one list of assignments.
-/

namespace InstrTable

/-- `Gives word key value`: a word is a key alone, which is set, or a key and, behind the
first equals sign, a text. -/
inductive Gives : String → String → Setting → Prop where
  | set {key : String} (hkey : '=' ∉ key.toList) : Gives key key .set
  | text {key value : String} (hkey : '=' ∉ key.toList) :
      Gives (key ++ "=" ++ value) key (.text value)

/-- `Expands shortcuts key key' source`: a key stands for another one. A shortcut is looked
for in the whole key first, and then behind its last dot. -/
inductive Expands (shortcuts : Keyed Shortcut) : String → String → Source → Prop where
  | whole {key : String} {s : Shortcut} (found : shortcuts.get? key = some s) :
      Expands shortcuts key s.expansion .shortcut
  | last {base last : String} {s : Shortcut}
      (missing : shortcuts.get? (base ++ "." ++ last) = none) (hlast : '.' ∉ last.toList)
      (found : shortcuts.get? last = some s) :
      Expands shortcuts (base ++ "." ++ last) (base ++ "." ++ s.expansion) .shortcut
  | itself {key : String} (missing : shortcuts.get? key = none)
      (hlast : ∀ base last, key = base ++ "." ++ last → '.' ∉ last.toList →
        shortcuts.get? last = none) :
      Expands shortcuts key key .explicit

/-- `Alternates key keys`: a key without bars is the only one, and otherwise there is one for
each text between the bars. What ends with the last dot before the first bar belongs to all
of them. -/
inductive Alternates : String → List String → Prop where
  | single {key : String} (hkey : '|' ∉ key.toList) : Alternates key [key]
  | several {base first : String} {alts : List String}
      (hbase : base = "" ∨ ∃ front, base = front ++ ".") (hbars : '|' ∉ base.toList)
      (hdots : '.' ∉ first.toList) (hne : alts ≠ [])
      (halts : ∀ alt ∈ first :: alts, '|' ∉ alt.toList) :
      Alternates (base ++ "|".intercalate (first :: alts)) ((first :: alts).map (base ++ ·))

section cut

variable {s a b mid : String} {front back : List Char} {sep : Char}

/-- A text that is cut at a character is put together from the parts. -/
theorem eq_append_append (hmid : mid.toList = [sep]) (h : s.toList = front ++ sep :: back) :
    s = String.ofList front ++ mid ++ String.ofList back := by
  apply String.toList_injective
  simp [h, hmid]

theorem toList_append_append (hmid : mid.toList = [sep]) :
    (a ++ mid ++ b).toList = a.toList ++ sep :: b.toList := by
  simp [hmid]

theorem cutFirst?_append_append (hmid : mid.toList = [sep]) (ha : sep ∉ a.toList) :
    Text.cutFirst? sep (a ++ mid ++ b).toList = some (a.toList, b.toList) :=
  Text.cutFirst?_eq_some_iff.mpr ⟨toList_append_append hmid, ha⟩

theorem cutLast?_append_append (hmid : mid.toList = [sep]) (hb : sep ∉ b.toList) :
    Text.cutLast? sep (a ++ mid ++ b).toList = some (a.toList, b.toList) :=
  Text.cutLast?_eq_some_iff.mpr ⟨toList_append_append hmid, hb⟩

end cut

namespace Vocabulary

variable {v : Vocabulary}

theorem splitWord_eq_iff {word key : String} {value : Setting} :
    splitWord word = (key, value) ↔ Gives word key value := by
  unfold splitWord
  constructor
  · intro h
    split at h
    · next front back hcut =>
      obtain ⟨hword, hkey⟩ := Text.cutFirst?_eq_some_iff.mp hcut
      obtain ⟨rfl, rfl⟩ := Prod.mk.inj h
      have hparts : word = String.ofList front ++ "=" ++ String.ofList back :=
        eq_append_append rfl hword
      rw [hparts]
      exact .text (by rwa [String.toList_ofList])
    · next hcut =>
      obtain ⟨rfl, rfl⟩ := Prod.mk.inj h
      exact .set (Text.cutFirst?_eq_none_iff.mp hcut)
  · intro h
    cases h with
    | set hkey => rw [Text.cutFirst?_eq_none_iff.mpr hkey]
    | @text key value hkey =>
        rw [cutFirst?_append_append rfl hkey]
        simp

theorem expand_eq_iff {key key' : String} {source : Source} :
    v.expand key = (key', source) ↔ Expands v.dictionaries.shortcuts key key' source := by
  unfold expand
  constructor
  · intro h
    split at h
    · next s found =>
      obtain ⟨rfl, rfl⟩ := Prod.mk.inj h
      exact .whole found
    · next missing =>
      split at h
      · next hcut =>
        obtain ⟨rfl, rfl⟩ := Prod.mk.inj h
        refine .itself missing fun base last hkey _ => ?_
        have hdot : '.' ∉ key.toList := Text.cutLast?_eq_none_iff.mp hcut
        simp [hkey] at hdot
      · next front back hcut =>
        obtain ⟨hkey, hback⟩ := Text.cutLast?_eq_some_iff.mp hcut
        have hparts : key = String.ofList front ++ "." ++ String.ofList back :=
          eq_append_append rfl hkey
        split at h
        · next s found =>
          obtain ⟨rfl, rfl⟩ := Prod.mk.inj h
          rw [hparts] at missing ⊢
          exact .last missing (by rwa [String.toList_ofList]) found
        · next hnone =>
          obtain ⟨rfl, rfl⟩ := Prod.mk.inj h
          refine .itself missing fun base last hbase hlast => ?_
          -- the last dot is where the key was cut, so this is the same last part
          rw [hbase, cutLast?_append_append rfl hlast] at hcut
          obtain ⟨-, rfl⟩ := Prod.mk.inj (Option.some.inj hcut)
          rw [String.ofList_toList] at hnone
          exact hnone
  · intro h
    cases h with
    | whole found => rw [found]
    | @last base last s missing hlast found =>
        rw [missing, cutLast?_append_append rfl hlast]
        simp [found]
    | itself missing hlast =>
        rw [missing]
        cases hcut : Text.cutLast? '.' key.toList with
        | none => rfl
        | some parts =>
            obtain ⟨hkey, hback⟩ := Text.cutLast?_eq_some_iff.mp hcut
            have hnone := hlast _ _ (eq_append_append rfl hkey) (by rwa [String.toList_ofList])
            simp [hnone]

end Vocabulary

theorem alternatives_of_not_mem {key : String} (h : '|' ∉ key.toList) :
    alternatives key = [key] := by
  simp only [alternatives, Text.cutFirst?_eq_none_iff.mpr h]

/-- A key with bars, cut into what belongs to all alternatives, the first of them, and what
stands behind the first bar. -/
structure CutAtBar (key base first rest : List Char) : Prop where
  key_eq : key = base ++ (first ++ '|' :: rest)
  base_eq : base = [] ∨ ∃ front, base = front ++ ['.']
  bar_not_mem_base : '|' ∉ base
  bar_not_mem_first : '|' ∉ first
  dot_not_mem_first : '.' ∉ first

theorem exists_cutAtBar {key : List Char} (h : '|' ∈ key) :
    ∃ base first rest, CutAtBar key base first rest := by
  cases hbar : Text.cutFirst? '|' key with
  | none => exact absurd h (Text.cutFirst?_eq_none_iff.mp hbar)
  | some parts =>
      obtain ⟨front, rest⟩ := parts
      obtain ⟨hkey, hfront⟩ := Text.cutFirst?_eq_some_iff.mp hbar
      cases hdot : Text.cutLast? '.' front with
      | none =>
          exact ⟨[], front, rest, hkey, .inl rfl, List.not_mem_nil, hfront,
            Text.cutLast?_eq_none_iff.mp hdot⟩
      | some ends =>
          obtain ⟨base, first⟩ := ends
          obtain ⟨rfl, hfirst⟩ := Text.cutLast?_eq_some_iff.mp hdot
          obtain ⟨hbase, hrest⟩ : '|' ∉ base ∧ '|' ∉ first := by simpa using hfront
          refine ⟨base ++ ['.'], first, rest, ?_, .inr ⟨base, rfl⟩, by simpa using hbase, hrest,
            hfirst⟩
          rw [hkey, List.append_assoc, List.append_assoc]
          rfl

theorem CutAtBar.alternatives_eq {key : String} {base first rest : List Char}
    (h : CutAtBar key.toList base first rest) :
    alternatives key =
      (first :: Text.pieces '|' rest).map fun alt => String.ofList (base ++ alt) := by
  have hbars : '|' ∉ base ++ first := by simp [h.bar_not_mem_base, h.bar_not_mem_first]
  have hbar : Text.cutFirst? '|' key.toList = some (base ++ first, rest) :=
    Text.cutFirst?_eq_some_iff.mpr ⟨by rw [h.key_eq, List.append_assoc], hbars⟩
  have hpieces : Text.pieces '|' (first ++ '|' :: rest) = first :: Text.pieces '|' rest :=
    Text.pieces_append_cons h.bar_not_mem_first rest
  unfold alternatives
  -- with no dot in `first`, the last dot before the bar is the one that ends `base`
  rcases h.base_eq with rfl | ⟨front, rfl⟩
  · have hdot : Text.cutLast? '.' first = none :=
      Text.cutLast?_eq_none_iff.mpr h.dot_not_mem_first
    simp only [hbar, List.nil_append, hdot, hpieces]
  · have hdot : Text.cutLast? '.' (front ++ ['.'] ++ first) = some (front, first) :=
      Text.cutLast?_eq_some_iff.mpr ⟨List.append_assoc .., h.dot_not_mem_first⟩
    simp only [hbar, hdot, hpieces]

theorem CutAtBar.alternates {key : String} {base first rest : List Char}
    (h : CutAtBar key.toList base first rest) : Alternates key (alternatives key) := by
  have hne : (Text.pieces '|' rest).map String.ofList ≠ [] := by
    simpa using Text.pieces_ne_nil '|' rest
  have hparts : key = String.ofList base ++ "|".intercalate
      (String.ofList first :: (Text.pieces '|' rest).map String.ofList) := by
    apply String.toList_injective
    rw [String.toList_append, toList_intercalate_bar, h.key_eq, List.map_cons,
      Text.joined_cons (by simpa using hne)]
    simp [Text.joined_pieces, Function.comp_def]
  have hkeys : alternatives key =
      (String.ofList first :: (Text.pieces '|' rest).map String.ofList).map
        (String.ofList base ++ ·) := by
    simp [h.alternatives_eq, String.ofList_append]
  rw [hkeys, hparts]
  refine .several ?_ (by simpa using h.bar_not_mem_base) (by simpa using h.dot_not_mem_first) hne ?_
  · exact h.base_eq.imp (fun hnil => by simp [hnil]) fun ⟨front, hfront⟩ =>
      ⟨String.ofList front, by rw [hfront, String.ofList_append]⟩
  · refine List.forall_mem_cons.mpr ⟨by simpa using h.bar_not_mem_first, fun alt halt => ?_⟩
    obtain ⟨piece, hpiece, rfl⟩ := List.mem_map.mp halt
    simpa using Text.not_mem_of_mem_pieces hpiece

/-- A key is read as the alternatives that it is put together from. -/
theorem alternatives_eq_iff {key : String} {keys : List String} :
    alternatives key = keys ↔ Alternates key keys := by
  constructor
  · rintro rfl
    by_cases hbar : '|' ∈ key.toList
    · obtain ⟨base, first, rest, hcut⟩ := exists_cutAtBar hbar
      exact hcut.alternates
    · rw [alternatives_of_not_mem hbar]
      exact .single hbar
  · intro h
    cases h with
    | single hbar => exact alternatives_of_not_mem hbar
    | @several base first alts hbase hbars hdots hne halts =>
        obtain ⟨hfirst, hothers⟩ := List.forall_mem_cons.mp halts
        have hcut : CutAtBar (base ++ "|".intercalate (first :: alts)).toList base.toList
            first.toList (Text.joined '|' (alts.map String.toList)) := by
          refine ⟨?_, ?_, hbars, hfirst, hdots⟩
          · rw [String.toList_append, toList_intercalate_bar, List.map_cons,
              Text.joined_cons (by simpa using hne)]
          · exact hbase.imp (fun hnil => by simp [hnil]) fun ⟨front, hfront⟩ =>
              ⟨front.toList, by rw [hfront, String.toList_append]; rfl⟩
        have hpieces : Text.pieces '|' (Text.joined '|' (alts.map String.toList)) =
            alts.map String.toList :=
          Text.pieces_joined (by simpa using hne) (List.forall_mem_map.mpr hothers)
        rw [hcut.alternatives_eq, hpieces]
        simp [String.ofList_append, Function.comp_def]

example : alternatives "APSR.N|Z|C" = ["APSR.N", "APSR.Z", "APSR.C"] := by decide

namespace Vocabulary

/-- `v.Asks word assignments`: what a word asks for. A lone question mark says that more is
unknown. Any other word gives its value to each key that it stands for. -/
inductive Asks (v : Vocabulary) : String → List Assignment → Prop where
  | unspecified : Asks v "?" [⟨"?", .set, .explicit, .unspecified⟩]
  | given {word key key' : String} {value : Setting} {source : Source} {keys : List String}
      (hword : word ≠ "?") (gives : Gives word key value)
      (expands : Expands v.dictionaries.shortcuts key key' source)
      (alternates : Alternates key' keys) :
      Asks v word (keys.map fun k => ⟨k, value, source, v.kindOf k value⟩)

variable {v : Vocabulary}

theorem asks_iff {word : String} {as : List Assignment} :
    v.Asks word as ↔ v.assignmentsOf word = as := by
  constructor
  · intro h
    cases h with
    | unspecified => exact if_pos rfl
    | given hword gives expands alternates =>
        rw [assignmentsOf, if_neg hword, splitWord_eq_iff.mpr gives]
        simp only [expand_eq_iff.mpr expands, alternatives_eq_iff.mpr alternates]
  · rintro rfl
    unfold assignmentsOf
    split
    case isTrue hword =>
      rw [hword]
      exact .unspecified
    case isFalse hword =>
      exact .given hword (splitWord_eq_iff.mp rfl) (expand_eq_iff.mp rfl)
        (alternatives_eq_iff.mp rfl)

theorem forall₂_asks_iff {words : List String} {parts : List (List Assignment)} :
    List.Forall₂ v.Asks words parts ↔ parts = words.map v.assignmentsOf := by
  have hasks : v.Asks = fun word as => v.assignmentsOf word = as := by
    funext word as
    exact propext asks_iff
  rw [hasks, ← List.forall₂_map_left_iff, List.forall₂_eq_eq_eq, eq_comm]

/-- The words of metadata ask for their assignments in one way, and these are made, each of
the kind that its key has with its value. What is reported is what is wrong with them. -/
theorem read_asks (v : Vocabulary) (s : String) :
    ∃ parts : List (List Assignment),
      (∀ parts', List.Forall₂ v.Asks (wordsOf s) parts' ↔ parts' = parts) ∧
      (v.read s).1.assignments = parts.flatten ∧
      (v.read s).2 = (v.read s).1.assignments.filterMap Assignment.problem? ∧
      ∀ a ∈ (v.read s).1.assignments,
        a = ⟨"?", .set, .explicit, .unspecified⟩ ∨ a.kind = v.kindOf a.key a.value := by
  refine ⟨(wordsOf s).map v.assignmentsOf, fun _ => forall₂_asks_iff, ?_, ?_, ?_⟩
  · rw [assignments_read, log, List.flatMap_def]
  · rw [assignments_read, read_eq]
  · rw [assignments_read]
    exact fun _ => makes_of_mem_log

/-- A question mark among alternatives is a key like others, so that the kind of an assignment
does not depend on its key and value alone: a lone one has the same. -/
theorem question_mark_has_two_kinds :
    ¬∃ kind : String → Setting → AssignmentKind,
      ∀ a ∈ ((ofDialect Builtin.X86.dictionaries).read "? ?|SSE2").1.assignments,
        a.kind = kind a.key a.value := by
  have hkinds : ((ofDialect Builtin.X86.dictionaries).read "? ?|SSE2").1.assignments =
      [⟨"?", .set, .explicit, .unspecified⟩, ⟨"?", .set, .explicit, .unknown⟩,
        ⟨"SSE2", .set, .explicit, .extension⟩] := by
    decide +kernel
  rintro ⟨kind, h⟩
  rw [hkinds] at h
  have hlone : AssignmentKind.unspecified = kind "?" .set := h _ List.mem_cons_self
  have hother : AssignmentKind.unknown = kind "?" .set :=
    h _ (List.mem_cons_of_mem _ List.mem_cons_self)
  exact absurd (hlone.trans hother.symm) (by decide)

end Vocabulary

end InstrTable
