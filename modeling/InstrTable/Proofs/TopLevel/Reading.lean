import InstrTable.TopLevel
import Mathlib.Logic.ExistsUnique

/-!
What splitting outside of brackets answers. A text has one reading as atoms, given here by
positions in the text, and the reading decides the answer: the pieces, or the first of its
blank runs and unclosed brackets.
-/

namespace InstrTable

/-- Whether a character opens a span. -/
def IsOpening (c : Char) : Prop := c ∈ ['(', '<', '[', '{']

theorem isOpening_iff {c : Char} : IsOpening c ↔ closing? c ≠ none := by
  simp only [IsOpening, closing?]
  split <;> simp_all

section closingIndex

variable {u : String} {i : Nat} {c : Char}

theorem toList_drop_eq_cons (here : u.toList[i]? = some c) :
    u.toList.drop i = c :: u.toList.drop (i + 1) := by
  obtain ⟨hi, rfl⟩ := List.getElem?_eq_some_iff.mp here
  exact List.drop_eq_getElem_cons hi

theorem toList_drop_length (u : String) : u.toList.drop u.length = [] :=
  List.drop_eq_nil_of_le (String.length_toList ▸ Nat.le_refl _)

theorem toList_extract_eq_cons (here : u.toList[i]? = some c) (k : Nat) :
    u.toList.extract i (i + 1 + k + 1) = c :: (u.toList.drop (i + 1)).take (k + 1) := by
  have hlen : i + 1 + k + 1 - i = k + 1 + 1 := by omega
  rw [List.extract_eq_take_drop, toList_drop_eq_cons here, hlen, List.take_succ_cons]

theorem lt_length_of_getElem? (here : u.toList[i]? = some c) : i < u.length := by
  obtain ⟨hi, -⟩ := List.getElem?_eq_some_iff.mp here
  rwa [String.length_toList] at hi

/-- Where the bracket at position `i` is closed, by the scan of what follows it. -/
theorem closingIndex_natCast (here : u.toList[i]? = some c) :
    closingIndex u i =
      .ok ((i + 1 + (closingOffset? c (closing? c) 0 (u.toList.drop (i + 1))).getD
        (u.length - (i + 1)) : Nat) : Int) := by
  have hplace : place? u.toList.length (i : Int) = some i :=
    place?_natCast (String.length_toList ▸ lt_length_of_getElem? here)
  have hsign : ¬(i : Int) < 0 := by omega
  have hrest : (u.toList.drop (i + 1)).length = u.length - (i + 1) := by
    rw [List.length_drop, String.length_toList]
  simp only [closingIndex, hplace, toList_drop_eq_cons here, hsign, if_false, hrest]
  congr 1

/-- A bracket is closed behind it. -/
theorem exists_eq_of_closingIndex (here : u.toList[i]? = some c) {j : Nat}
    (h : closingIndex u i = .ok (j : Int)) : ∃ k, j = i + 1 + k := by
  rw [closingIndex_natCast here, Except.ok.injEq, Int.natCast_inj] at h
  exact ⟨_, h.symm⟩

theorem closingOffset?_eq_some_iff (here : u.toList[i]? = some c) {k : Nat} :
    closingOffset? c (closing? c) 0 (u.toList.drop (i + 1)) = some k ↔
      closingIndex u i = .ok ((i + 1 + k : Nat) : Int) ∧ i + 1 + k < u.length := by
  rw [closingIndex_natCast here, Except.ok.injEq, Int.natCast_inj]
  cases hoffset : closingOffset? c (closing? c) 0 (u.toList.drop (i + 1)) with
  | none => simp; omega
  | some n =>
      have hn := closingOffset?_lt hoffset
      rw [List.length_drop, String.length_toList] at hn
      simp only [Option.some.injEq, Option.getD_some]
      omega

theorem closingOffset?_eq_none_iff (here : u.toList[i]? = some c) :
    closingOffset? c (closing? c) 0 (u.toList.drop (i + 1)) = none ↔
      closingIndex u i = .ok (u.length : Int) := by
  have hi := lt_length_of_getElem? here
  rw [closingIndex_natCast here, Except.ok.injEq, Int.natCast_inj]
  cases hoffset : closingOffset? c (closing? c) 0 (u.toList.drop (i + 1)) with
  | none => simp; omega
  | some n =>
      have hn := closingOffset?_lt hoffset
      rw [List.length_drop, String.length_toList] at hn
      simp only [reduceCtorEq, Option.getD_some, false_iff]
      omega

end closingIndex

namespace TopLevel

/-- The characters of an atom that stand in a piece. -/
def Atom.text : Atom → List Char
  | .separator => []
  | .span cs => cs

/-- The maximal runs of atoms that are not separators, as texts. -/
def runTexts (as : List Atom) : List (List Char) :=
  (as.splitOn .separator).map (·.flatMap Atom.text)

/-- `Reads sep u i as unclosed`: from position `i` on, `u` reads as the atoms `as`, up to its
end or to the first bracket that nothing closes. -/
inductive Reads (sep : Char) (u : String) : Nat → List Atom → Option Unclosed → Prop where
  | done : Reads sep u u.length [] none
  | separator {i : Nat} {as : List Atom} {unclosed : Option Unclosed}
      (here : u.toList[i]? = some sep) (next : Reads sep u (i + 1) as unclosed) :
      Reads sep u i (.separator :: as) unclosed
  | single {i : Nat} {c : Char} {as : List Atom} {unclosed : Option Unclosed}
      (here : u.toList[i]? = some c) (differs : c ≠ sep) (plain : ¬IsOpening c)
      (next : Reads sep u (i + 1) as unclosed) :
      Reads sep u i (.span [c] :: as) unclosed
  | span {i j : Nat} {c : Char} {as : List Atom} {unclosed : Option Unclosed}
      (here : u.toList[i]? = some c) (differs : c ≠ sep) (opens : IsOpening c)
      (closes : closingIndex u i = .ok (j : Int)) (inside : j < u.length)
      (next : Reads sep u (j + 1) as unclosed) :
      Reads sep u i (.span (u.toList.extract i (j + 1)) :: as) unclosed
  | unclosed {i : Nat} {c : Char}
      (here : u.toList[i]? = some c) (differs : c ≠ sep) (opens : IsOpening c)
      (outside : closingIndex u i = .ok (u.length : Int)) :
      Reads sep u i [] (some ⟨c, i + 1⟩)

/-- The runs that end before the bracket that nothing closes: all of them if there is none,
and otherwise those that a separator follows. -/
def endedRuns (as : List Atom) : Option Unclosed → List (List Char)
  | none => runTexts as
  | some _ => (runTexts as).dropLast

def IsBlank (run : List Char) : Prop := ∀ c ∈ run, Text.isBlank c

/-- The answer for a text without blanks around it, with the texts of its errors. -/
inductive Splits (sep : Char) : String → Except String (List String) → Prop where
  | empty : Splits sep "" (.ok [])
  | pieces {u : String} {as : List Atom} (nonempty : u ≠ "")
      (reads : Reads sep u 0 as none) (filled : ∀ run ∈ runTexts as, ¬IsBlank run) :
      Splits sep u (.ok ((runTexts as).map fun run => trimmed (String.ofList run)))
  | blank {u : String} {as : List Atom} {unclosed : Option Unclosed} {run : List Char}
      (nonempty : u ≠ "") (reads : Reads sep u 0 as unclosed)
      (ended : run ∈ endedRuns as unclosed) (isBlank : IsBlank run) :
      Splits sep u (.error s!"Found empty operand in '{u}'")
  | unterminated {u : String} {as : List Atom} {opening : Char} {column : Nat}
      (nonempty : u ≠ "") (reads : Reads sep u 0 as (some ⟨opening, column⟩))
      (filled : ∀ run ∈ endedRuns as (some ⟨opening, column⟩), ¬IsBlank run) :
      Splits sep u
        (.error s!"Unterminated '{opening.toString}' at column {column} in '{u}'")

theorem isBlankRun_iff {run : List Char} : isBlankRun run = true ↔ IsBlank run := by
  simp [isBlankRun, IsBlank]

theorem any_isBlankRun_iff {runs : List (List Char)} :
    runs.any isBlankRun = true ↔ ∃ run ∈ runs, IsBlank run := by
  simp [isBlankRun_iff]

theorem not_any_isBlankRun_iff {runs : List (List Char)} :
    ¬runs.any isBlankRun = true ↔ ∀ run ∈ runs, ¬IsBlank run := by
  simp only [any_isBlankRun_iff, not_exists, not_and]

theorem runTexts_separator_cons (as : List Atom) :
    runTexts (.separator :: as) = [] :: runTexts as := by
  simp [runTexts, List.splitOn_eq_splitOnP, List.splitOnP_cons_eq_if_modifyHead]

theorem runTexts_span_cons (cs : List Char) (as : List Atom) :
    runTexts (.span cs :: as) = Text.extendHead cs (runTexts as) := by
  have hcons : List.splitOn .separator (.span cs :: as) =
      (List.splitOn .separator as).modifyHead (Atom.span cs :: ·) := by
    simp [List.splitOn_eq_splitOnP, List.splitOnP_cons_eq_if_modifyHead]
  obtain ⟨run, rest, hsplit⟩ := List.exists_cons_of_ne_nil (List.splitOn_ne_nil .separator as)
  rw [runTexts, runTexts, hcons, hsplit]
  rfl

theorem runs_eq (as : List Atom) : runs as = runTexts as := by
  induction as with
  | nil => rfl
  | cons a as ih =>
      cases a with
      | separator => rw [runs, ih, runTexts_separator_cons]
      | span cs => rw [runs, ih, runTexts_span_cons]

theorem runTexts_ne_nil (as : List Atom) : runTexts as ≠ [] := by
  simp [runTexts, List.splitOn_ne_nil]

/-- There is one run more than there are separators. -/
theorem length_runTexts (as : List Atom) :
    (runTexts as).length = as.count .separator + 1 := by
  induction as with
  | nil => rfl
  | cons a as ih =>
      cases a with
      | separator => rw [runTexts_separator_cons, List.length_cons, ih, List.count_cons_self]
      | span cs =>
          rw [runTexts_span_cons, Text.length_extendHead cs (runTexts_ne_nil as), ih,
            List.count_cons_of_ne (by simp)]

section reading

variable {sep : Char} {u : String} {i : Nat} {as : List Atom} {unclosed : Option Unclosed}

/-- A reading from position `i` on is what `atoms` finds there. -/
theorem Reads.atoms_eq (h : Reads sep u i as unclosed) :
    atoms (some sep) (i + 1) (u.toList.drop i) = (as, unclosed) := by
  induction h with
  | done => rw [toList_drop_length, atoms]
  | separator here _ ih => rw [toList_drop_eq_cons here, atoms, if_pos rfl, ih]
  | single here differs plain _ ih =>
      have hplain : closing? _ = none := Classical.not_not.mp (mt isOpening_iff.mpr plain)
      rw [toList_drop_eq_cons here, atoms, if_neg (by simpa using differs)]
      simp only [hplain, ih]
  | @span i j c as unclosed here differs opens closes inside _ ih =>
      obtain ⟨d, hd⟩ := Option.ne_none_iff_exists'.mp (isOpening_iff.mp opens)
      obtain ⟨k, rfl⟩ := exists_eq_of_closingIndex here closes
      have hoffset := (closingOffset?_eq_some_iff here).mpr ⟨closes, inside⟩
      rw [toList_drop_eq_cons here, atoms, if_neg (by simpa using differs)]
      rw [hd] at hoffset
      have hcolumn : i + 1 + (k + 2) = i + 1 + k + 1 + 1 := by omega
      have hrest : i + 1 + (k + 1) = i + 1 + k + 1 := by omega
      simp only [hd, hoffset, List.drop_drop, hcolumn, hrest, ih, toList_extract_eq_cons here]
  | @unclosed i c here differs opens outside =>
      obtain ⟨d, hd⟩ := Option.ne_none_iff_exists'.mp (isOpening_iff.mp opens)
      have hoffset := (closingOffset?_eq_none_iff here).mpr outside
      rw [toList_drop_eq_cons here, atoms, if_neg (by simpa using differs)]
      rw [hd] at hoffset
      simp only [hd, hoffset]

/-- A reading up to the end leaves nothing out. -/
theorem Reads.joined_runTexts (h : Reads sep u i as unclosed) (hend : unclosed = none) :
    Text.joined sep (runTexts as) = u.toList.drop i := by
  induction h with
  | done =>
      rw [toList_drop_length]
      rfl
  | @separator i as _ here _ ih =>
      rw [runTexts_separator_cons, Text.joined_nil_cons sep (runTexts_ne_nil as), ih hend,
        toList_drop_eq_cons here]
  | @single i c as _ here _ _ _ ih =>
      rw [runTexts_span_cons, Text.joined_extendHead sep [c] (runTexts_ne_nil as), ih hend,
        toList_drop_eq_cons here]
      rfl
  | @span i j c as _ here _ _ closes _ _ ih =>
      obtain ⟨k, rfl⟩ := exists_eq_of_closingIndex here closes
      have hrest : u.toList.drop (i + 1 + k + 1) = (u.toList.drop (i + 1)).drop (k + 1) := by
        rw [List.drop_drop, Nat.add_assoc (i + 1)]
      rw [runTexts_span_cons, Text.joined_extendHead sep _ (runTexts_ne_nil as), ih hend,
        toList_extract_eq_cons here, hrest, List.cons_append, List.take_append_drop,
        toList_drop_eq_cons here]
  | unclosed => contradiction

/-- Every text reads in some way from every position of it. -/
theorem Reads.total (sep : Char) {u : String} {i : Nat} (h : i ≤ u.length) :
    ∃ as unclosed, Reads sep u i as unclosed := by
  -- By the number of characters left, since a span takes more than one of them.
  rcases Nat.eq_or_lt_of_le h with rfl | hi
  · exact ⟨[], none, .done⟩
  · obtain ⟨c, here⟩ : ∃ c, u.toList[i]? = some c :=
      ⟨_, List.getElem?_eq_getElem (String.length_toList ▸ hi)⟩
    by_cases hsep : c = sep
    · obtain ⟨as, unclosed, next⟩ := Reads.total sep hi
      exact ⟨_, _, .separator (hsep ▸ here) next⟩
    · by_cases hopens : IsOpening c
      · cases hoffset : closingOffset? c (closing? c) 0 (u.toList.drop (i + 1)) with
        | none =>
            have outside := (closingOffset?_eq_none_iff here).mp hoffset
            exact ⟨_, _, .unclosed here hsep hopens outside⟩
        | some k =>
            obtain ⟨closes, inside⟩ := (closingOffset?_eq_some_iff here).mp hoffset
            obtain ⟨as, unclosed, next⟩ := Reads.total sep inside
            exact ⟨_, _, .span here hsep hopens closes inside next⟩
      · obtain ⟨as, unclosed, next⟩ := Reads.total sep hi
        exact ⟨_, _, .single here hsep hopens next⟩
termination_by u.length - i

/-- A text has one reading. -/
theorem existsUnique_reads (sep : Char) (u : String) :
    ∃! r : List Atom × Option Unclosed, Reads sep u 0 r.1 r.2 := by
  obtain ⟨as, unclosed, h⟩ := Reads.total sep (Nat.zero_le u.length)
  refine ⟨(as, unclosed), h, fun r hr => ?_⟩
  exact hr.atoms_eq.symm.trans h.atoms_eq

end reading

end TopLevel

open TopLevel

variable {sep : Char} {s : String} {as : List Atom} {unclosed : Option Unclosed}

theorem trim_eq_nil_iff : Text.trim s.toList = [] ↔ trimmed s = "" := by
  rw [trimmed, ← String.ofList_nil, String.ofList_inj]

theorem splitTopLevel_of_empty (h : trimmed s = "") : splitTopLevel (some sep) s = .ok [] := by
  simp [splitTopLevel, trim_eq_nil_iff.mpr h]

section nonempty

variable (hne : trimmed s ≠ "")

include hne

theorem splitTopLevel_of_reads_none (h : Reads sep (trimmed s) 0 as none) :
    splitTopLevel (some sep) s =
      if (endedRuns as none).any isBlankRun then .error (.emptyOperand (trimmed s))
      else .ok ((runTexts as).map fun run => trimmed (String.ofList run)) := by
  have hatoms : atoms (some sep) 1 (Text.trim s.toList) = (as, none) := by
    simpa [trimmed] using h.atoms_eq
  simp [splitTopLevel, mt trim_eq_nil_iff.mp hne, hatoms, runs_eq, endedRuns, trimmed]

theorem splitTopLevel_of_reads_some {b : Unclosed} (h : Reads sep (trimmed s) 0 as (some b)) :
    splitTopLevel (some sep) s =
      if (endedRuns as (some b)).any isBlankRun then .error (.emptyOperand (trimmed s))
      else .error (.unterminated b.opening b.column (trimmed s)) := by
  have hatoms : atoms (some sep) 1 (Text.trim s.toList) = (as, some b) := by
    simpa [trimmed] using h.atoms_eq
  simp [splitTopLevel, mt trim_eq_nil_iff.mp hne, hatoms, runs_eq, endedRuns, trimmed]

theorem splitTopLevel_pieces (h : Reads sep (trimmed s) 0 as none)
    (filled : ∀ run ∈ runTexts as, ¬IsBlank run) :
    splitTopLevel (some sep) s =
      .ok ((runTexts as).map fun run => trimmed (String.ofList run)) := by
  rw [splitTopLevel_of_reads_none hne h]
  exact if_neg (not_any_isBlankRun_iff.mpr filled)

theorem splitTopLevel_unterminated {b : Unclosed} (h : Reads sep (trimmed s) 0 as (some b))
    (filled : ∀ run ∈ endedRuns as (some b), ¬IsBlank run) :
    splitTopLevel (some sep) s = .error (.unterminated b.opening b.column (trimmed s)) := by
  rw [splitTopLevel_of_reads_some hne h]
  exact if_neg (not_any_isBlankRun_iff.mpr filled)

theorem splitTopLevel_blank (h : Reads sep (trimmed s) 0 as unclosed)
    (blank : ∃ run ∈ endedRuns as unclosed, IsBlank run) :
    splitTopLevel (some sep) s = .error (.emptyOperand (trimmed s)) := by
  have hany := any_isBlankRun_iff.mpr blank
  cases unclosed with
  | none => rw [splitTopLevel_of_reads_none hne h, if_pos hany]
  | some b => rw [splitTopLevel_of_reads_some hne h, if_pos hany]

end nonempty

theorem splits_splitTopLevel (sep : Char) (s : String) :
    Splits sep (trimmed s) ((splitTopLevel (some sep) s).mapError SplitError.message) := by
  by_cases hempty : trimmed s = ""
  · rw [splitTopLevel_of_empty hempty, hempty]
    exact .empty
  · obtain ⟨as, unclosed, hreads⟩ := Reads.total sep (Nat.zero_le (trimmed s).length)
    by_cases hblank : ∃ run ∈ endedRuns as unclosed, IsBlank run
    · rw [splitTopLevel_blank hempty hreads hblank]
      obtain ⟨run, hended, hblank⟩ := hblank
      exact .blank hempty hreads hended hblank
    · have hfilled : ∀ run ∈ endedRuns as unclosed, ¬IsBlank run :=
        fun run hended hblank' => hblank ⟨run, hended, hblank'⟩
      cases unclosed with
      | none =>
          rw [splitTopLevel_pieces hempty hreads hfilled]
          exact .pieces hempty hreads hfilled
      | some b =>
          rw [splitTopLevel_unterminated hempty hreads hfilled]
          exact .unterminated hempty hreads hfilled

theorem eq_of_splits {answer : Except String (List String)} (h : Splits sep (trimmed s) answer) :
    (splitTopLevel (some sep) s).mapError SplitError.message = answer := by
  generalize hu : trimmed s = u at h
  cases h with
  | empty =>
      rw [splitTopLevel_of_empty hu]
      rfl
  | pieces hne hreads hfilled =>
      subst hu
      rw [splitTopLevel_pieces hne hreads hfilled]
      rfl
  | blank hne hreads hended hblank =>
      subst hu
      rw [splitTopLevel_blank hne hreads ⟨_, hended, hblank⟩]
      rfl
  | unterminated hne hreads hfilled =>
      subst hu
      rw [splitTopLevel_unterminated hne hreads hfilled]
      rfl

/-- A text that is not blank gives one piece more than it has separators. -/
theorem length_of_splitTopLevel {pieces : List String} (hne : trimmed s ≠ "")
    (h : splitTopLevel (some sep) s = .ok pieces) :
    ∃ as, Reads sep (trimmed s) 0 as none ∧ pieces.length = as.count .separator + 1 := by
  have hsplits := splits_splitTopLevel sep s
  rw [h] at hsplits
  generalize hu : trimmed s = u at hsplits hne
  cases hsplits with
  | empty => exact absurd rfl hne
  | @pieces _ as _ hreads =>
      exact ⟨as, hreads, by rw [List.length_map, length_runTexts]⟩

/-- Splitting is reading the trimmed text as atoms: the pieces are the runs between
separators, and of a blank run and a bracket that nothing closes the one further left is the
error. -/
theorem splitTopLevel_iff_splits (sep : Char) (s : String) :
    (∃! r : List Atom × Option Unclosed, Reads sep (trimmed s) 0 r.1 r.2) ∧
    (∀ answer, (splitTopLevel (some sep) s).mapError SplitError.message = answer ↔
      Splits sep (trimmed s) answer) ∧
    ∀ pieces, trimmed s ≠ "" → splitTopLevel (some sep) s = .ok pieces →
      ∃ as, Reads sep (trimmed s) 0 as none ∧ pieces.length = as.count .separator + 1 := by
  refine ⟨existsUnique_reads sep _, fun answer => ⟨?_, eq_of_splits⟩,
    fun pieces hne h => length_of_splitTopLevel hne h⟩
  rintro rfl
  exact splits_splitTopLevel sep s

end InstrTable
