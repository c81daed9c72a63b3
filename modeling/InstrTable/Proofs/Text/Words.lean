import InstrTable.Text.Blank
import Mathlib.Data.List.DropRight

/-!
Words with one space between neighbours. Cutting such a text into words gives them
back. A text without blanks has nothing to trim, and neither has one that was trimmed.
-/

namespace InstrTable

namespace Text

/-- Whether a text is one word. -/
def isWord (cs : List Char) : Bool := !cs.isEmpty && cs.all fun c => !isBlank c

theorem isWord_iff {cs : List Char} : isWord cs = true ↔ cs ≠ [] ∧ ∀ c ∈ cs, isBlank c = false := by
  simp [isWord]

theorem wordsFrom_append {cs : List Char} (h : ∀ c ∈ cs, isBlank c = false)
    (word rest : List Char) :
    wordsFrom word (cs ++ rest) = wordsFrom (cs.reverse ++ word) rest := by
  induction cs generalizing word with
  | nil => rfl
  | cons c cs ih =>
      have hc : isBlank c = false := h c List.mem_cons_self
      have hcs : ∀ d ∈ cs, isBlank d = false := fun d hd => h d (List.mem_cons_of_mem _ hd)
      simp only [List.cons_append, wordsFrom, hc, Bool.false_eq_true, if_false]
      rw [ih hcs]
      simp

theorem exists_wordsFrom_eq_cons {word : List Char} (h : word ≠ []) (cs : List Char) :
    ∃ rest ws, wordsFrom word cs = (word.reverse ++ rest) :: ws := by
  induction cs generalizing word with
  | nil => exact ⟨[], [], by simp [wordsFrom, h]⟩
  | cons c cs ih =>
      rw [wordsFrom]
      by_cases hc : isBlank c = true
      · exact ⟨[], wordsFrom [] cs, by simp [hc, h]⟩
      · obtain ⟨rest, ws, hcons⟩ := ih (List.cons_ne_nil c word)
        exact ⟨c :: rest, ws, by simp [hc, hcons]⟩

/-- A word at the front of a text begins its first word. -/
theorem exists_words_append {front : List Char} (h : isWord front = true) (cs : List Char) :
    ∃ rest ws, words (front ++ cs) = (front ++ rest) :: ws := by
  obtain ⟨hne, hblank⟩ := isWord_iff.mp h
  obtain ⟨rest, ws, hcons⟩ := exists_wordsFrom_eq_cons (List.reverse_ne_nil_iff.mpr hne) cs
  refine ⟨rest, ws, ?_⟩
  rw [words, wordsFrom_append hblank, List.append_nil, hcons, List.reverse_reverse]

theorem words_word {cs : List Char} (h : isWord cs = true) : words cs = [cs] := by
  obtain ⟨hne, hblank⟩ := isWord_iff.mp h
  have hfrom := wordsFrom_append hblank [] []
  rw [List.append_nil] at hfrom
  simp [words, hfrom, wordsFrom, hne]

theorem words_word_blank {cs : List Char} (h : isWord cs = true) {b : Char}
    (hblank : isBlank b = true) (rest : List Char) : words (cs ++ b :: rest) = cs :: words rest := by
  obtain ⟨hne, hword⟩ := isWord_iff.mp h
  rw [words, wordsFrom_append hword]
  simp [wordsFrom, hblank, hne, words]

/-- A text that does not begin with a blank is its first word and what stands behind that. -/
theorem exists_words_cons {c : Char} (h : isBlank c = false) (cs : List Char) :
    ∃ word rest, c :: cs = word ++ rest ∧ (∀ b ∈ rest.head?, isBlank b = true) ∧
      words (c :: cs) = word :: words rest := by
  let word := (c :: cs).takeWhile fun d => !isBlank d
  let rest := (c :: cs).dropWhile fun d => !isBlank d
  have hcs : c :: cs = word ++ rest := List.takeWhile_append_dropWhile.symm
  have hword : isWord word = true := by
    refine isWord_iff.mpr ⟨by simp [word, h], fun d hd => ?_⟩
    have hnot := List.mem_takeWhile_imp (p := fun d => !isBlank d) hd
    simpa using hnot
  have hrest : ∀ b ∈ rest.head?, isBlank b = true := by
    intro b hb
    have hnot := List.head?_dropWhile_not (fun d => !isBlank d) (c :: cs)
    rw [Option.mem_def.mp hb] at hnot
    exact Bool.not_eq_eq_eq_not.mp hnot
  refine ⟨word, rest, hcs, hrest, ?_⟩
  rw [hcs]
  generalize rest = rest at hrest ⊢
  cases rest with
  | nil =>
      rw [List.append_nil, words_word hword]
      rfl
  | cons b rest =>
      have hb : isBlank b = true := hrest b rfl
      have hskip : words (b :: rest) = words rest := by simp [words, wordsFrom, hb]
      rw [words_word_blank hword hb, hskip]

theorem words_intercalate {ws : List (List Char)} (h : ∀ w ∈ ws, isWord w = true) :
    words ([' '].intercalate ws) = ws := by
  induction ws with
  | nil => rfl
  | cons w ws ih =>
      have hw : isWord w = true := h w List.mem_cons_self
      cases ws with
      | nil => simpa using words_word hw
      | cons v vs =>
          have hrest := ih fun u hu => h u (List.mem_cons_of_mem _ hu)
          rw [List.intercalate_cons_cons, List.append_assoc, List.singleton_append,
            words_word_blank hw (by decide), hrest]

/-- Cutting gives words alone, if no blank stands in the one in progress. -/
theorem isWord_of_mem_wordsFrom {word : List Char} (h : ∀ c ∈ word, isBlank c = false)
    {cs w : List Char} (hw : w ∈ wordsFrom word cs) : isWord w = true := by
  induction cs generalizing word with
  | nil =>
      rw [wordsFrom] at hw
      split at hw
      · contradiction
      · next hne =>
        obtain rfl := List.mem_singleton.mp hw
        exact isWord_iff.mpr ⟨by simpa using hne, by simpa using h⟩
  | cons c cs ih =>
      rw [wordsFrom] at hw
      split at hw
      · split at hw
        · exact ih (by simp) hw
        · next hne =>
          rcases List.mem_cons.mp hw with rfl | hw
          · exact isWord_iff.mpr ⟨by simpa using hne, by simpa using h⟩
          · exact ih (by simp) hw
      · next hblank => exact ih (List.forall_mem_cons.mpr ⟨by simpa using hblank, h⟩) hw

theorem isWord_of_mem_words {cs w : List Char} (hw : w ∈ words cs) : isWord w = true :=
  isWord_of_mem_wordsFrom (by simp) hw

/-! ### A line feed at the end -/

theorem dropFinalNewline_of_not_mem {cs : List Char} (h : '\n' ∉ cs) :
    dropFinalNewline cs = cs := by
  rw [dropFinalNewline, if_neg fun hlast => h (List.mem_of_getLast? hlast)]

theorem dropFinalNewline_concat (cs : List Char) : dropFinalNewline (cs ++ ['\n']) = cs := by
  rw [dropFinalNewline, List.getLast?_concat, if_pos rfl, List.dropLast_concat]

/-- What is dropped is nothing or one line feed. -/
theorem exists_ending (cs : List Char) : ∃ ending, cs = dropFinalNewline cs ++ ending ∧
    (ending = [] ∨ ending = ['\n']) := by
  unfold dropFinalNewline
  split
  · next hlast => exact ⟨_, (List.dropLast_append_getLast? _ hlast).symm, .inr rfl⟩
  · exact ⟨[], (List.append_nil _).symm, .inl rfl⟩

theorem dropFinalNewline_subset (cs : List Char) : dropFinalNewline cs ⊆ cs := by
  obtain ⟨ending, heq, -⟩ := exists_ending cs
  exact List.subset_def.mpr fun hc => heq ▸ List.mem_append_left ending hc

theorem dropFinalNewline_cons_cons (c d : Char) (cs : List Char) :
    dropFinalNewline (c :: d :: cs) = c :: dropFinalNewline (d :: cs) := by
  simp only [dropFinalNewline, List.getLast?_cons_cons]
  split <;> rfl

/-- A line feed that is dropped stands behind something, unless it is the whole text. -/
theorem exists_dropFinalNewline_cons {c : Char} (h : c ≠ '\n') (cs : List Char) :
    ∃ rest, dropFinalNewline (c :: cs) = c :: rest := by
  cases cs with
  | nil => exact ⟨[], dropFinalNewline_of_not_mem (by simpa using h.symm)⟩
  | cons d cs => exact ⟨_, dropFinalNewline_cons_cons c d cs⟩

/-! ### Texts without blanks -/

section noBlank

variable {cs : List Char} (h : ∀ c ∈ cs, isBlank c = false)
include h

theorem trimStart_eq_self : trimStart cs = cs := by
  cases cs with
  | nil => rfl
  | cons c cs => rw [trimStart_cons, h c List.mem_cons_self, if_neg Bool.false_ne_true]

theorem trim_eq_self : trim cs = cs := by
  have hback : trimStart cs.reverse = cs.reverse := trimStart_eq_self (by simpa using h)
  rw [trim, trimStart_eq_self h, trimEnd, hback, List.reverse_reverse]

theorem dropFinalNewline_eq_self : dropFinalNewline cs = cs :=
  dropFinalNewline_of_not_mem fun hnewline => absurd (h '\n' hnewline) (by decide)

end noBlank

/-! ### Trimming twice -/

theorem trimStart_trimStart (cs : List Char) : trimStart (trimStart cs) = trimStart cs :=
  List.dropWhile_idempotent isBlank cs

theorem trimEnd_trimEnd (cs : List Char) : trimEnd (trimEnd cs) = trimEnd cs := by
  simp only [trimEnd, List.reverse_reverse, trimStart_trimStart]

theorem trimEnd_isPrefix (cs : List Char) : trimEnd cs <+: cs :=
  List.rdropWhile_prefix isBlank cs

theorem isBlank_or_mem_trimStart {cs : List Char} {c : Char} (h : c ∈ cs) :
    isBlank c = true ∨ c ∈ trimStart cs := by
  rw [← List.takeWhile_append_dropWhile (p := isBlank) (l := cs), List.mem_append] at h
  exact h.imp_left List.mem_takeWhile_imp

theorem isBlank_or_mem_trim {cs : List Char} {c : Char} (h : c ∈ cs) :
    isBlank c = true ∨ c ∈ trim cs := by
  rcases isBlank_or_mem_trimStart h with hblank | hmem
  · exact .inl hblank
  · rw [trim, trimEnd, List.mem_reverse]
    exact isBlank_or_mem_trimStart (List.mem_reverse.mpr hmem)

theorem trim_subset (cs : List Char) : trim cs ⊆ cs :=
  List.Subset.trans (trimEnd_isPrefix (trimStart cs)).subset (List.dropWhile_suffix isBlank).subset

/-- Where nothing is to be trimmed at the start, there is nothing without the end either. -/
theorem trimStart_trimEnd {cs : List Char} (h : trimStart cs = cs) :
    trimStart (trimEnd cs) = trimEnd cs := by
  rw [trimStart, List.dropWhile_eq_self_iff] at h ⊢
  intro hlength
  rw [(trimEnd_isPrefix cs).getElem]
  exact h _

theorem trim_trim (cs : List Char) : trim (trim cs) = trim cs := by
  have hstart : trimStart (trim cs) = trim cs := trimStart_trimEnd (trimStart_trimStart cs)
  rw [trim, hstart, trim, trimEnd_trimEnd]

theorem trimStart_eq_nil_iff {cs : List Char} : trimStart cs = [] ↔ ∀ c ∈ cs, isBlank c = true :=
  List.dropWhile_eq_nil_iff

theorem trimEnd_eq_nil_iff {cs : List Char} : trimEnd cs = [] ↔ ∀ c ∈ cs, isBlank c = true := by
  rw [trimEnd, List.reverse_eq_nil_iff, trimStart_eq_nil_iff]
  simp only [List.mem_reverse]

theorem trim_eq_nil_iff {cs : List Char} : trim cs = [] ↔ ∀ c ∈ cs, isBlank c = true := by
  rw [trim, trimEnd_eq_nil_iff, ← trimStart_eq_nil_iff, trimStart_trimStart, trimStart_eq_nil_iff]

end Text

theorem isWord_of_mem_wordsOf {s w : String} (h : w ∈ wordsOf s) : Text.isWord w.toList = true := by
  obtain ⟨cs, hcs, rfl⟩ := List.mem_map.mp h
  rw [String.toList_ofList]
  exact Text.isWord_of_mem_words hcs

/-- The words of a text that is put together from them. -/
theorem wordsOf_intercalate {ws : List String} (h : ∀ w ∈ ws, Text.isWord w.toList = true) :
    wordsOf (" ".intercalate ws) = ws := by
  have hlist : ∀ w ∈ ws.map String.toList, Text.isWord w = true := by simpa using h
  have hspace : " ".toList = [' '] := rfl
  rw [wordsOf, String.toList_intercalate, hspace, Text.words_intercalate hlist]
  simp [Function.comp_def]

end InstrTable
