import InstrTable.Builtin.Arm
import InstrTable.Proofs.Keyed
import InstrTable.Proofs.Metadata.Words
import InstrTable.Proofs.Text.Words

/-!
Shortcuts and bars only abbreviate. The assignments that metadata says can be written out,
a word for each, and these words say the same metadata without any shortcut.
-/

namespace InstrTable

/-- The word that gives a key this value. -/
def Setting.wordOf (key : String) : Setting → String
  | .set => key
  | .text s => key ++ "=" ++ s

namespace Assignment

/-- The word that says an assignment. -/
def spelling (a : Assignment) : String :=
  if a.kind = .unspecified then "?" else a.value.wordOf a.key

/-- Assignments as the words that say them. -/
def textOf (log : List Assignment) : String := " ".intercalate (log.map spelling)

/-- An assignment as it is made when its key is written out. -/
def writtenOut (a : Assignment) : Assignment := { a with source := .explicit }

end Assignment

/-- Metadata as it is when the keys of all its assignments are written out. -/
def Metadata.writtenOut (m : Metadata) : Metadata :=
  { m with assignments := m.assignments.map Assignment.writtenOut }

/-! ### The characters of keys and values -/

section characters

variable {P : Char → Prop} {word key key' : String}

theorem Gives.not_mem_key {value : Setting} (h : Gives word key value) : '=' ∉ key.toList := by
  cases h with
  | set hkey => exact hkey
  | text hkey => exact hkey

theorem Gives.forall_key {value : Setting} (h : Gives word key value)
    (hword : ∀ c ∈ word.toList, P c) : ∀ c ∈ key.toList, P c := by
  cases h with
  | set => exact hword
  | text => exact fun c hc => hword c (by simp [hc])

theorem Gives.forall_value {value : String} (h : Gives word key (.text value))
    (hword : ∀ c ∈ word.toList, P c) : ∀ c ∈ value.toList, P c := by
  cases h with
  | text => exact fun c hc => hword c (by simp [hc])

/-- What holds of the characters of a key and of all expansions also holds of those of the
key that it stands for. -/
theorem Expands.forall_key {shortcuts : Keyed Shortcut} {source : Source}
    (h : Expands shortcuts key key' source) (hkey : ∀ c ∈ key.toList, P c)
    (hshortcuts : ∀ s ∈ shortcuts.values, ∀ c ∈ s.expansion.toList, P c) :
    ∀ c ∈ key'.toList, P c := by
  cases h with
  | @whole _ s found => exact hshortcuts s (Keyed.mem_values_of_get? found)
  | @last base last s missing hlast found =>
      have hexpansion := hshortcuts s (Keyed.mem_values_of_get? found)
      simp only [String.toList_append, List.forall_mem_append] at hkey ⊢
      exact ⟨hkey.1, hexpansion⟩
  | itself => exact hkey

theorem Alternates.forall_key {keys : List String} (h : Alternates key keys)
    (hkey : ∀ c ∈ key.toList, P c) : ∀ k ∈ keys, ∀ c ∈ k.toList, P c := by
  cases h with
  | single => simpa using hkey
  | @several base first alts =>
      rw [String.toList_append, List.forall_mem_append, toList_intercalate_bar] at hkey
      refine List.forall_mem_map.mpr fun alt halt => ?_
      rw [String.toList_append, List.forall_mem_append]
      exact ⟨hkey.1, fun c hc => hkey.2 c (Text.mem_joined (List.mem_map_of_mem halt) hc)⟩

theorem Alternates.not_mem_key {keys : List String} (h : Alternates key keys) :
    ∀ k ∈ keys, '|' ∉ k.toList := by
  cases h with
  | single hkey => simpa using hkey
  | several hbase hbars hdots hne halts =>
      refine List.forall_mem_map.mpr fun alt halt => ?_
      rw [String.toList_append, List.mem_append, not_or]
      exact ⟨hbars, halts alt halt⟩

end characters

namespace Vocabulary

variable {v : Vocabulary}

/-- The same keys without the shortcuts. -/
def withoutShortcuts (v : Vocabulary) : Vocabulary :=
  { v with dictionaries := { v.dictionaries with shortcuts := .empty } }

theorem meaning_withoutShortcuts (v : Vocabulary) (key : String) (value : Setting) :
    v.withoutShortcuts.meaning key value = v.meaning key value := rfl

/-! ### The word of one assignment -/

/-- Whether the word of an assignment says it: a lone question mark, or a key that stands for
itself, with a value that stays in the word. -/
inductive Told (v : Vocabulary) : Assignment → Prop where
  | unspecified : Told v ⟨"?", .set, .explicit, .unspecified⟩
  | given {key : String} {value : Setting} {source : Source}
      (hkey : ∀ c ∈ key.toList, Text.isBlank c = false) (hequals : '=' ∉ key.toList)
      (hbars : '|' ∉ key.toList)
      (hvalue : ∀ s, value = .text s → ∀ c ∈ s.toList, Text.isBlank c = false)
      (hset : value = .set → key ≠ "" ∧ key ≠ "?") :
      Told v ⟨key, value, source, v.kindOf key value⟩

theorem spelling_given (v : Vocabulary) (key : String) (value : Setting) (source : Source) :
    Assignment.spelling ⟨key, value, source, v.kindOf key value⟩ = value.wordOf key :=
  if_neg (kindOf_ne_unspecified v key value)

theorem gives_wordOf {key : String} (h : '=' ∉ key.toList) (value : Setting) :
    Gives (value.wordOf key) key value := by
  cases value with
  | set => exact .set h
  | text s => exact .text h

/-- Without shortcuts and bars a key stands for itself alone. -/
theorem assignmentsOf_wordOf {key : String} {value : Setting} (hequals : '=' ∉ key.toList)
    (hbars : '|' ∉ key.toList) (hmark : value.wordOf key ≠ "?") :
    v.withoutShortcuts.assignmentsOf (value.wordOf key) =
      [⟨key, value, .explicit, v.kindOf key value⟩] := by
  have hexpands : Expands v.withoutShortcuts.dictionaries.shortcuts key key .explicit :=
    .itself rfl fun _ _ _ _ => rfl
  exact asks_iff.mp (.given hmark (gives_wordOf hequals value) hexpands (.single hbars))

theorem Told.assignmentsOf_spelling {a : Assignment} (h : v.Told a) :
    v.withoutShortcuts.assignmentsOf a.spelling = [a.writtenOut] := by
  cases h with
  | unspecified => rfl
  | @given key value source hkey hequals hbars hvalue hset =>
      have hmark : value.wordOf key ≠ "?" := by
        cases value with
        | set => exact (hset rfl).2
        | text s =>
            -- the mark has no equals sign
            intro hword
            have hmem : '=' ∈ (Setting.wordOf key (.text s)).toList := by simp [Setting.wordOf]
            rw [hword] at hmem
            exact absurd hmem (by decide)
      rw [spelling_given, assignmentsOf_wordOf hequals hbars hmark]
      rfl

theorem Told.isWord_spelling {a : Assignment} (h : v.Told a) :
    Text.isWord a.spelling.toList = true := by
  cases h with
  | unspecified => decide
  | @given key value source hkey hequals hbars hvalue hset =>
      rw [spelling_given, Text.isWord_iff]
      cases value with
      | set => exact ⟨by simpa [Setting.wordOf] using (hset rfl).1, hkey⟩
      | text s =>
          have hsign : Text.isBlank '=' = false := by decide
          simp only [Setting.wordOf, String.toList_append, List.forall_mem_append]
          exact ⟨by simp, ⟨hkey, by simpa using hsign⟩, hvalue s rfl⟩

/-- What is asked for by words without blanks and equals signs in their shortcuts. -/
theorem told_of_mem_log {s : String} {a : Assignment} (ha : a ∈ v.log s)
    (hshortcuts : ∀ shortcut ∈ v.dictionaries.shortcuts.values,
      ∀ c ∈ shortcut.expansion.toList, Text.isBlank c = false ∧ c ≠ '=')
    (hempty : ¬(a.key = "" ∧ a.value = .set))
    (hmark : a.key = "?" → a.value = .set → a.kind = .unspecified) : v.Told a := by
  obtain ⟨word, hword, hasked⟩ := List.mem_flatMap.mp ha
  have hblank := (Text.isWord_iff.mp (isWord_of_mem_wordsOf hword)).2
  have hasks : v.Asks word (v.assignmentsOf word) := asks_iff.mpr rfl
  generalize v.assignmentsOf word = asked at hasks hasked
  cases hasks with
  | unspecified =>
      obtain rfl := List.mem_singleton.mp hasked
      exact .unspecified
  | given hother gives expands alternates =>
      obtain ⟨key, hkey, rfl⟩ := List.mem_map.mp hasked
      have hchars : ∀ c ∈ key.toList, Text.isBlank c = false ∧ c ≠ '=' := by
        refine alternates.forall_key (expands.forall_key ?_ hshortcuts) key hkey
        intro c hc
        exact ⟨gives.forall_key hblank c hc, fun hsign => gives.not_mem_key (hsign ▸ hc)⟩
      refine .given (fun c hc => (hchars c hc).1) (fun hsign => (hchars _ hsign).2 rfl)
        (alternates.not_mem_key key hkey) ?_ ?_
      · rintro text rfl
        exact gives.forall_value hblank
      · intro hset
        refine ⟨fun hnone => hempty ⟨hnone, hset⟩, fun hkeymark => ?_⟩
        exact kindOf_ne_unspecified v key _ (hmark hkeymark hset)

/-! ### The words of all assignments -/

theorem log_textOf {log : List Assignment} (h : ∀ a ∈ log, v.Told a) :
    v.withoutShortcuts.log (Assignment.textOf log) = log.map Assignment.writtenOut := by
  have hwords : ∀ w ∈ log.map Assignment.spelling, Text.isWord w.toList = true :=
    List.forall_mem_map.mpr fun a ha => (h a ha).isWord_spelling
  unfold Vocabulary.log Assignment.textOf
  rw [wordsOf_intercalate hwords, List.flatMap_map, List.map_eq_flatMap]
  exact List.flatMap_congr fun a ha => (h a ha).assignmentsOf_spelling

theorem addExtension_writtenOut (m : Metadata) (name : String) :
    m.writtenOut.addExtension name = (m.addExtension name).writtenOut := by
  rw [Metadata.addExtension_eq, Metadata.addExtension_eq]
  rfl

theorem apply_writtenOut_x86 (k : X86Key) (m : Metadata) (value : Setting) :
    k.apply m.writtenOut value = (k.apply m value).writtenOut := by
  cases k with
  | vectorLengths extension => simp only [X86Key.apply, addExtension_writtenOut]
  | pop =>
      simp only [X86Key.apply]
      split
      · rfl
      · rfl
  | _ => rfl

/-- No meaning looks at the assignments that were made before. -/
theorem apply_writtenOut (meaning : Meaning) (m : Metadata) (key : String) (value : Setting) :
    meaning.apply m.writtenOut key value = (meaning.apply m key value).writtenOut := by
  cases meaning with
  | dictionary isExtension isRegister =>
      cases isExtension <;> cases isRegister
      all_goals simp only [Meaning.apply, addExtension_writtenOut]
      all_goals rfl
  | specific k => exact apply_writtenOut_x86 k m value
  | _ => rfl

theorem enter_writtenOut (v : Vocabulary) (m : Metadata) (a : Assignment) :
    v.withoutShortcuts.enter m.writtenOut a.writtenOut = (v.enter m a).writtenOut := by
  have happly := apply_writtenOut (v.meaning a.key a.value) m a.key a.value
  unfold enter
  by_cases h : a.kind = .unspecified
  · simp [h, Assignment.writtenOut, Metadata.writtenOut]
  · simp only [Assignment.writtenOut, if_neg h, meaning_withoutShortcuts, happly]
    simp [Metadata.writtenOut, Assignment.writtenOut]

theorem replay_writtenOut (v : Vocabulary) (log : List Assignment) :
    v.withoutShortcuts.replay (log.map Assignment.writtenOut) = (v.replay log).writtenOut := by
  have hfold : log.foldl (fun m a => v.withoutShortcuts.enter m a.writtenOut)
      (Metadata.writtenOut {}) = (log.foldl v.enter {}).writtenOut :=
    List.foldl_hom Metadata.writtenOut (enter_writtenOut v)
  rw [replay, List.foldl_map]
  exact hfold

theorem settle_writtenOut (v : Vocabulary) (m : Metadata) :
    v.withoutShortcuts.settle m.writtenOut = (v.settle m).writtenOut := by
  cases v with
  | mk dictionaries knowsX86 => cases knowsX86 <;> rfl

theorem problems_writtenOut (log : List Assignment) :
    (log.map Assignment.writtenOut).filterMap Assignment.problem? =
      log.filterMap Assignment.problem? := by
  rw [List.filterMap_map]
  rfl

/-- Shortcuts and bars abbreviate, and nothing else: the assignments of metadata, each as a
word of its own, say the same metadata and have the same faults when there is no shortcut. -/
theorem read_textOf (v : Vocabulary) (s : String)
    (hshortcuts : ∀ shortcut ∈ v.dictionaries.shortcuts.values,
      ∀ c ∈ shortcut.expansion.toList, Text.isBlank c = false ∧ c ≠ '=')
    (hempty : ∀ a ∈ (v.read s).1.assignments, ¬(a.key = "" ∧ a.value = .set))
    (hmarks : ∀ a ∈ (v.read s).1.assignments,
      a.key = "?" → a.value = .set → a.kind = .unspecified) :
    v.withoutShortcuts.read (Assignment.textOf (v.read s).1.assignments) =
      ((v.read s).1.writtenOut, (v.read s).2) := by
  rw [assignments_read] at hempty hmarks
  have htold : ∀ a ∈ v.log s, v.Told a := fun a ha =>
    told_of_mem_log ha hshortcuts (hempty a ha) (hmarks a ha)
  rw [assignments_read, read_eq, read_eq, log_textOf htold, replay_writtenOut, settle_writtenOut,
    problems_writtenOut]

/-- The flags of the status register may be told by their shortcut or one by one. -/
theorem read_textOf_flags :
    let v := ofDialect Builtin.Arm.dictionaries
    let words := "APSR.N=W APSR.Z=W APSR.C=W APSR.V=W Op=Adc Op=Sub ?"
    Assignment.textOf (v.read "APSR.NZCV=W Op=Adc Op=Sub ?").1.assignments = words ∧
      v.withoutShortcuts.read words =
        ((v.read "APSR.NZCV=W Op=Adc Op=Sub ?").1.writtenOut,
          (v.read "APSR.NZCV=W Op=Adc Op=Sub ?").2) := by
  intro v words
  have hwords : Assignment.textOf (v.read "APSR.NZCV=W Op=Adc Op=Sub ?").1.assignments = words := by
    decide +kernel
  refine ⟨hwords, ?_⟩
  rw [← hwords]
  have hexpansions : ∀ shortcut ∈ v.dictionaries.shortcuts.values,
      Text.isWord shortcut.expansion.toList = true ∧ '=' ∉ shortcut.expansion.toList := by
    decide +kernel
  refine read_textOf v _ (fun shortcut hshortcut c hc => ?_) (by decide +kernel) (by decide +kernel)
  obtain ⟨hword, hsign⟩ := hexpansions shortcut hshortcut
  exact ⟨(Text.isWord_iff.mp hword).2 c hc, ne_of_mem_of_not_mem hc hsign⟩

end Vocabulary

end InstrTable
