import InstrTable.Proofs.Text.Pieces
import InstrTable.Proofs.Text.Words
import InstrTable.Proofs.TopLevel.Reading

/-!
Splitting and joining. An atom is read alike wherever it stands, since a bracket is closed by
what follows it and not by what is around both; and blanks, which are atoms of their own, can be
trimmed off without cutting a span. So the pieces of a text are found again one by one, and all
of them when they are joined.
-/

namespace InstrTable

/-! ### Trimmed texts -/

namespace Text

variable {p : List Char}

theorem trim_eq_self_iff : trim p = p ↔ trimStart p = p ∧ trimEnd p = p := by
  constructor
  · intro h
    have hstart : trimStart p = p := by
      rw [← h, trim, trimStart_trimEnd (trimStart_trimStart p)]
    refine ⟨hstart, ?_⟩
    rwa [trim, hstart] at h
  · rintro ⟨hstart, hend⟩
    rw [trim, hstart, hend]

theorem trimStart_append (hne : p ≠ []) (h : trimStart p = p) (rest : List Char) :
    trimStart (p ++ rest) = p ++ rest := by
  obtain ⟨c, cs, rfl⟩ := List.exists_cons_of_ne_nil hne
  rw [trimStart, List.dropWhile_eq_self_iff] at h ⊢
  simpa using h

theorem trimEnd_append (hne : p ≠ []) (h : trimEnd p = p) (front : List Char) :
    trimEnd (front ++ p) = front ++ p := by
  have hback : trimStart p.reverse = p.reverse := List.reverse_eq_iff.mp h
  rw [trimEnd, List.reverse_append, trimStart_append (by simpa using hne) hback,
    ← List.reverse_append, List.reverse_reverse]

theorem joined_ne_nil {sep : Char} {q : List Char} (hne : q ≠ []) (qs : List (List Char)) :
    joined sep (q :: qs) ≠ [] := by
  cases qs with
  | nil => exact hne
  | cons r rs => simp [joined]

/-- Trimmed pieces make a trimmed text, whatever stands between them. -/
theorem trim_joined (sep : Char) {ps : List (List Char)} (hne : ∀ p ∈ ps, p ≠ [])
    (htrim : ∀ p ∈ ps, trim p = p) : trim (joined sep ps) = joined sep ps := by
  rw [trim_eq_self_iff]
  induction ps with
  | nil => exact ⟨rfl, rfl⟩
  | cons p ps ih =>
      obtain ⟨hp, hps⟩ := List.forall_mem_cons.mp hne
      obtain ⟨htrimp, htrimps⟩ := List.forall_mem_cons.mp htrim
      obtain ⟨hstart, hend⟩ := trim_eq_self_iff.mp htrimp
      cases ps with
      | nil => exact ⟨hstart, hend⟩
      | cons q qs =>
          have hrest : joined sep (q :: qs) ≠ [] := joined_ne_nil (hps q List.mem_cons_self) qs
          refine ⟨trimStart_append hp hstart _, ?_⟩
          rw [joined, List.append_cons]
          exact trimEnd_append hrest (ih hps htrimps).2 _

end Text

/-! ### Atoms by themselves -/

/-- A scan stops at a character, or goes on behind it with some number of open brackets. Either
way it does not look at what follows. -/
theorem closingOffset?_cons (opening : Char) (closing : Option Char) (pending : Nat) (c : Char) :
    (closing = some c ∧ ∀ cs, closingOffset? opening closing pending (c :: cs) = some 0) ∨
      ∃ pending', ∀ cs, closingOffset? opening closing pending (c :: cs) =
        (closingOffset? opening closing pending' cs).map (· + 1) := by
  by_cases hopening : c = opening
  · exact .inr ⟨pending + 1, fun cs => by simp only [closingOffset?, if_pos hopening]⟩
  · by_cases hclosing : some c = closing
    · cases pending with
      | zero =>
          exact .inl ⟨hclosing.symm, fun cs => by
            simp only [closingOffset?, if_neg hopening, if_pos hclosing]⟩
      | succ pending =>
          exact .inr ⟨pending, fun cs => by
            simp only [closingOffset?, if_neg hopening, if_pos hclosing]⟩
    · exact .inr ⟨pending, fun cs => by
        cases pending <;> simp only [closingOffset?, if_neg hopening, if_neg hclosing]⟩

/-- The bracket that closes stands where the scan stops, and it would stop there whatever
followed. -/
theorem exists_of_closingOffset? {opening : Char} {closing : Option Char} {pending k : Nat}
    {cs : List Char} (h : closingOffset? opening closing pending cs = some k) :
    ∃ inner c rest, cs = inner ++ c :: rest ∧ inner.length = k ∧ closing = some c ∧
      ∀ rest, closingOffset? opening closing pending (inner ++ c :: rest) = some k := by
  induction cs generalizing pending k with
  | nil => simp [closingOffset?] at h
  | cons c cs ih =>
      rcases closingOffset?_cons opening closing pending c with
        ⟨hclosing, hstop⟩ | ⟨pending', hstep⟩
      · obtain rfl : 0 = k := Option.some.inj ((hstop cs).symm.trans h)
        exact ⟨[], c, cs, rfl, rfl, hclosing, hstop⟩
      · rw [hstep] at h
        obtain ⟨j, hj, rfl⟩ := Option.map_eq_some_iff.mp h
        obtain ⟨inner, c', rest, rfl, hlength, hclosing, hcloses⟩ := ih hj
        refine ⟨c :: inner, c', rest, rfl, by simp [hlength], hclosing, fun rest => ?_⟩
        rw [List.cons_append, hstep, hcloses, Option.map_some]

namespace TopLevel

variable {sep : Char} {a : Atom} {as : List Atom}

/-- An atom as it stands in the text. -/
def Atom.written (sep : Char) : Atom → List Char
  | .separator => [sep]
  | .span cs => cs

/-- What is read as one atom, whatever follows it. -/
inductive IsAtom (sep : Char) : Atom → Prop where
  | separator : IsAtom sep .separator
  | single {c : Char} (differs : c ≠ sep) (plain : closing? c = none) : IsAtom sep (.span [c])
  | span {opening closing : Char} {inner : List Char} (differs : opening ≠ sep)
      (opens : closing? opening = some closing)
      (closes : ∀ rest, closingOffset? opening (some closing) 0 (inner ++ closing :: rest) =
        some inner.length) :
      IsAtom sep (.span (opening :: (inner ++ [closing])))

theorem take_closing (inner : List Char) (closing : Char) (rest : List Char) :
    (inner ++ closing :: rest).take (inner.length + 1) = inner ++ [closing] := by
  simp [List.take_add_one]

theorem drop_closing (inner : List Char) (closing : Char) (rest : List Char) :
    (inner ++ closing :: rest).drop (inner.length + 1) = rest := by
  simp

/-- An atom is read where it is written, and then what follows. -/
theorem IsAtom.atoms_append (h : IsAtom sep a) (column : Nat) (rest : List Char) :
    ∃ column', atoms (some sep) column (a.written sep ++ rest) =
      (a :: (atoms (some sep) column' rest).1, (atoms (some sep) column' rest).2) := by
  cases h with
  | separator => exact ⟨column + 1, by rw [Atom.written, List.singleton_append, atoms, if_pos rfl]⟩
  | single differs plain =>
      refine ⟨column + 1, ?_⟩
      rw [Atom.written, List.singleton_append, atoms, if_neg (by simpa using differs)]
      simp only [plain]
  | @span opening closing inner differs opens closes =>
      refine ⟨column + (inner.length + 2), ?_⟩
      have hwritten : Atom.written sep (.span (opening :: (inner ++ [closing]))) ++ rest =
          opening :: (inner ++ closing :: rest) := by simp [Atom.written]
      rw [hwritten, atoms, if_neg (by simpa using differs)]
      simp only [opens, closes, take_closing, drop_closing]

theorem atoms_written (h : ∀ a ∈ as, IsAtom sep a) (column : Nat) :
    atoms (some sep) column (as.flatMap (Atom.written sep)) = (as, none) := by
  induction as generalizing column with
  | nil => rw [List.flatMap_nil, atoms]
  | cons a as ih =>
      obtain ⟨ha, has⟩ := List.forall_mem_cons.mp h
      obtain ⟨column', hatoms⟩ := ha.atoms_append column (as.flatMap (Atom.written sep))
      rw [List.flatMap_cons, hatoms, ih has]

/-- What is read up to the end is made of atoms. -/
theorem of_atoms {column : Nat} {cs : List Char} (h : atoms (some sep) column cs = (as, none)) :
    (∀ a ∈ as, IsAtom sep a) ∧ as.flatMap (Atom.written sep) = cs := by
  fun_induction atoms (some sep) column cs generalizing as with
  | case1 =>
      obtain ⟨rfl, -⟩ := Prod.mk.inj h
      exact ⟨by simp, rfl⟩
  | case2 column c cs hsep as' unclosed hrest ih =>
      obtain ⟨rfl, rfl⟩ := Prod.mk.inj h
      obtain ⟨hatoms, hwritten⟩ := ih hrest
      refine ⟨List.forall_mem_cons.mpr ⟨.separator, hatoms⟩, ?_⟩
      rw [List.flatMap_cons, hwritten, Option.some.inj hsep]
      rfl
  | case3 column c cs hsep hplain as' unclosed hrest ih =>
      obtain ⟨rfl, rfl⟩ := Prod.mk.inj h
      obtain ⟨hatoms, hwritten⟩ := ih hrest
      refine ⟨List.forall_mem_cons.mpr ⟨.single (by simpa using hsep) hplain, hatoms⟩, ?_⟩
      rw [List.flatMap_cons, hwritten]
      rfl
  | case4 => simp at h
  | case5 column c cs hsep d hopens k hoffset as' unclosed hrest ih =>
      obtain ⟨rfl, rfl⟩ := Prod.mk.inj h
      obtain ⟨hatoms, hwritten⟩ := ih hrest
      obtain ⟨inner, closing, rest, rfl, rfl, hclosing, hcloses⟩ := exists_of_closingOffset? hoffset
      obtain rfl := Option.some.inj hclosing
      rw [take_closing, drop_closing] at *
      refine ⟨List.forall_mem_cons.mpr ⟨.span (by simpa using hsep) hopens hcloses, hatoms⟩, ?_⟩
      rw [List.flatMap_cons, hwritten]
      simp [Atom.written]

/-! ### Rows of spans -/

/-- A blank is neither bracket of a pair. -/
theorem isBlank_brackets {opening closing : Char} (h : closing? opening = some closing) :
    Text.isBlank opening = false ∧ Text.isBlank closing = false := by
  unfold closing? at h
  split at h
  case h_5 => contradiction
  all_goals
    obtain rfl := Option.some.inj h
    decide

/-- At the start of a text an atom is a blank that is trimmed off, or stays as it is. -/
theorem IsAtom.trimStart_append (h : IsAtom sep a) (rest : List Char) :
    Text.trimStart (a.text ++ rest) = Text.trimStart rest ∨
      Text.trimStart (a.text ++ rest) = a.text ++ rest := by
  cases h with
  | separator => exact .inl rfl
  | @single c differs plain =>
      rw [Atom.text, List.singleton_append, Text.trimStart_cons]
      split
      · exact .inl rfl
      · exact .inr rfl
  | @span opening closing inner differs opens closes =>
      rw [Atom.text, List.cons_append, Text.trimStart_cons, (isBlank_brackets opens).1]
      exact .inr rfl

theorem IsAtom.trimEnd_append (h : IsAtom sep a) (front : List Char) :
    Text.trimEnd (front ++ a.text) = Text.trimEnd front ∨
      Text.trimEnd (front ++ a.text) = front ++ a.text := by
  have hconcat (cs : List Char) (c : Char) :
      Text.trimEnd (cs ++ [c]) = if Text.isBlank c then Text.trimEnd cs else cs ++ [c] := by
    rw [Text.trimEnd, List.reverse_concat, Text.trimStart_cons]
    split
    · rfl
    · rw [List.reverse_cons, List.reverse_reverse]
  cases h with
  | separator => exact .inl (by rw [Atom.text, List.append_nil])
  | @single c differs plain =>
      rw [Atom.text, hconcat]
      split
      · exact .inl rfl
      · exact .inr rfl
  | @span opening closing inner differs opens closes =>
      rw [Atom.text, ← List.cons_append, ← List.append_assoc, hconcat, (isBlank_brackets opens).2]
      exact .inr rfl

theorem exists_trimStart (h : ∀ a ∈ as, IsAtom sep a) :
    ∃ bs, bs ⊆ as ∧ bs.flatMap Atom.text = Text.trimStart (as.flatMap Atom.text) := by
  induction as with
  | nil => exact ⟨[], List.Subset.refl _, rfl⟩
  | cons a as ih =>
      obtain ⟨ha, has⟩ := List.forall_mem_cons.mp h
      rw [List.flatMap_cons]
      rcases ha.trimStart_append (as.flatMap Atom.text) with hblank | hkept
      · obtain ⟨bs, hbs, htext⟩ := ih has
        exact ⟨bs, List.subset_cons_of_subset a hbs, htext.trans hblank.symm⟩
      · exact ⟨a :: as, List.Subset.refl _, hkept.symm⟩

theorem exists_trimEnd (h : ∀ a ∈ as, IsAtom sep a) :
    ∃ bs, bs ⊆ as ∧ bs.flatMap Atom.text = Text.trimEnd (as.flatMap Atom.text) := by
  induction as using List.reverseRecOn with
  | nil => exact ⟨[], List.Subset.refl _, rfl⟩
  | append_singleton as a ih =>
      obtain ⟨has, ha⟩ := List.forall_mem_append.mp h
      rw [List.flatMap_append, List.flatMap_singleton]
      rcases (ha a (List.mem_singleton_self a)).trimEnd_append (as.flatMap Atom.text) with
        hblank | hkept
      · obtain ⟨bs, hbs, htext⟩ := ih has
        exact ⟨bs, List.subset_append_of_subset_left [a] hbs, htext.trans hblank.symm⟩
      · refine ⟨as ++ [a], List.Subset.refl _, ?_⟩
        rw [List.flatMap_append, List.flatMap_singleton, hkept]

/-- Trimming takes atoms away at both ends, and cuts none of them. -/
theorem exists_trim (h : ∀ a ∈ as, IsAtom sep a) :
    ∃ bs, bs ⊆ as ∧ bs.flatMap Atom.text = Text.trim (as.flatMap Atom.text) := by
  obtain ⟨bs, hbs, hstart⟩ := exists_trimStart h
  obtain ⟨cs, hcs, hend⟩ := exists_trimEnd fun a ha => h a (hbs ha)
  exact ⟨cs, List.Subset.trans hcs hbs, by rw [hend, hstart, Text.trim]⟩

/-- What may stand between two separators: a trimmed row of spans. -/
def IsPiece (sep : Char) (p : List Char) : Prop :=
  (∃ as : List Atom, (∀ a ∈ as, IsAtom sep a) ∧ .separator ∉ as ∧ as.flatMap Atom.text = p) ∧
    p ≠ [] ∧ Text.trim p = p

theorem exists_of_mem_runTexts {run : List Char} (h : run ∈ runTexts as) :
    ∃ bs, bs ⊆ as ∧ .separator ∉ bs ∧ bs.flatMap Atom.text = run := by
  induction as generalizing run with
  | nil =>
      obtain rfl := List.mem_singleton.mp h
      exact ⟨[], List.Subset.refl _, List.not_mem_nil, rfl⟩
  | cons a as ih =>
      cases a with
      | separator =>
          rw [runTexts_separator_cons] at h
          rcases List.mem_cons.mp h with rfl | h
          · exact ⟨[], List.nil_subset _, List.not_mem_nil, rfl⟩
          · obtain ⟨bs, hbs, hsep, hrun⟩ := ih h
            exact ⟨bs, List.subset_cons_of_subset _ hbs, hsep, hrun⟩
      | span cs =>
          obtain ⟨first, runs, hruns⟩ := List.exists_cons_of_ne_nil (runTexts_ne_nil as)
          rw [runTexts_span_cons, hruns, Text.extendHead_cons] at h
          rw [hruns] at ih
          rcases List.mem_cons.mp h with rfl | h
          · obtain ⟨bs, hbs, hsep, rfl⟩ := ih List.mem_cons_self
            exact ⟨.span cs :: bs, List.cons_subset_cons _ hbs, by simp [hsep], rfl⟩
          · obtain ⟨bs, hbs, hsep, hrun⟩ := ih (List.mem_cons_of_mem _ h)
            exact ⟨bs, List.subset_cons_of_subset _ hbs, hsep, hrun⟩

/-- A run is a piece when it is trimmed, if it is not blank. -/
theorem isPiece_trim (h : ∀ a ∈ as, IsAtom sep a) {run : List Char} (hrun : run ∈ runTexts as)
    (hfilled : ¬IsBlank run) : IsPiece sep (Text.trim run) := by
  obtain ⟨bs, hbs, hsep, rfl⟩ := exists_of_mem_runTexts hrun
  obtain ⟨cs, hcs, htext⟩ := exists_trim fun a ha => h a (hbs ha)
  exact ⟨⟨cs, fun a ha => h a (hbs (hcs ha)), fun hmem => hsep (hcs hmem), htext⟩,
    fun hnil => hfilled (Text.trim_eq_nil_iff.mp hnil), Text.trim_trim _⟩

/-- Spans in front of what is read belong to its first run. -/
theorem runTexts_append {bs : List Atom} (h : .separator ∉ bs) (as : List Atom) :
    runTexts (bs ++ as) = Text.extendHead (bs.flatMap Atom.text) (runTexts as) := by
  obtain ⟨run, runs, hruns⟩ := List.exists_cons_of_ne_nil (runTexts_ne_nil as)
  induction bs with
  | nil => rw [List.nil_append, hruns]; rfl
  | cons b bs ih =>
      cases b with
      | separator => exact absurd List.mem_cons_self h
      | span cs =>
          rw [List.cons_append, runTexts_span_cons, ih (List.not_mem_of_not_mem_cons h), hruns]
          simp [Atom.text]

theorem flatMap_written (h : .separator ∉ as) :
    as.flatMap (Atom.written sep) = as.flatMap Atom.text := by
  refine List.flatMap_congr fun a ha => ?_
  cases a with
  | separator => exact absurd ha h
  | span cs => rfl

/-- Pieces that are joined are read as they are. -/
theorem exists_atoms_joined {ps : List (List Char)} (hne : ps ≠ []) (h : ∀ p ∈ ps, IsPiece sep p) :
    ∃ as, (∀ a ∈ as, IsAtom sep a) ∧ as.flatMap (Atom.written sep) = Text.joined sep ps ∧
      runTexts as = ps := by
  induction ps with
  | nil => exact absurd rfl hne
  | cons p ps ih =>
      obtain ⟨⟨bs, hbs, hsep, rfl⟩, -⟩ := h p List.mem_cons_self
      cases ps with
      | nil =>
          refine ⟨bs, hbs, flatMap_written hsep, ?_⟩
          have hruns := runTexts_append hsep []
          rwa [List.append_nil, show runTexts [] = [[]] from rfl, Text.extendHead_cons,
            List.append_nil] at hruns
      | cons q qs =>
          obtain ⟨as, has, hwritten, hruns⟩ :=
            ih (by simp) fun r hr => h r (List.mem_cons_of_mem _ hr)
          refine ⟨bs ++ .separator :: as, ?_, ?_, ?_⟩
          · exact List.forall_mem_append.mpr ⟨hbs, List.forall_mem_cons.mpr ⟨.separator, has⟩⟩
          · rw [List.flatMap_append, List.flatMap_cons, flatMap_written hsep, hwritten]
            rfl
          · rw [runTexts_append hsep, runTexts_separator_cons, hruns, Text.extendHead_cons,
              List.append_nil]

/-- What is read as atoms is what a reading finds. -/
theorem reads_iff_atoms {u : String} {unclosed : Option Unclosed} :
    Reads sep u 0 as unclosed ↔ atoms (some sep) 1 u.toList = (as, unclosed) := by
  refine ⟨fun h => h.atoms_eq, fun h => ?_⟩
  obtain ⟨as', unclosed', hreads⟩ := Reads.total sep (Nat.zero_le u.length)
  obtain ⟨rfl, rfl⟩ := Prod.mk.inj (hreads.atoms_eq.symm.trans h)
  exact hreads

end TopLevel

open TopLevel

variable {sep : Char} {pieces : List String}

/-- What a text is split into are pieces. -/
theorem isPiece_of_splitTopLevel {s : String} (h : splitTopLevel (some sep) s = .ok pieces) :
    ∀ p ∈ pieces, IsPiece sep p.toList := by
  have hsplits := splits_splitTopLevel sep s
  rw [h] at hsplits
  generalize trimmed s = u at hsplits
  cases hsplits with
  | empty => simp
  | @pieces _ as _ hreads hfilled =>
      intro p hp
      obtain ⟨run, hrun, rfl⟩ := List.mem_map.mp hp
      have hatoms := (of_atoms (reads_iff_atoms.mp hreads)).1
      simpa [trimmed] using isPiece_trim hatoms hrun (hfilled run hrun)

/-- Pieces that are joined are split into the same pieces. -/
theorem splitTopLevel_intercalate (h : ∀ p ∈ pieces, IsPiece sep p.toList) :
    splitTopLevel (some sep) (sep.toString.intercalate pieces) = .ok pieces := by
  have hlist : ∀ p ∈ pieces.map String.toList, IsPiece sep p := List.forall_mem_map.mpr h
  have hjoined := toList_intercalate_toString sep pieces
  have htrimmed : trimmed (sep.toString.intercalate pieces) = sep.toString.intercalate pieces := by
    rw [trimmed, hjoined, Text.trim_joined sep (fun p hp => (hlist p hp).2.1)
      (fun p hp => (hlist p hp).2.2), ← hjoined, String.ofList_toList]
  cases pieces with
  | nil => exact splitTopLevel_of_empty htrimmed
  | cons p ps =>
      obtain ⟨as, hatoms, hwritten, hruns⟩ := exists_atoms_joined (by simp) hlist
      have hreads : Reads sep (trimmed (sep.toString.intercalate (p :: ps))) 0 as none := by
        rw [htrimmed, reads_iff_atoms, hjoined, ← hwritten]
        exact atoms_written hatoms 1
      have hfilled : ∀ run ∈ runTexts as, ¬IsBlank run := by
        rw [hruns]
        intro run hrun hblank
        obtain ⟨-, hne, htrim⟩ := hlist run hrun
        exact hne (htrim ▸ Text.trim_eq_nil_iff.mpr hblank)
      have hne : trimmed (sep.toString.intercalate (p :: ps)) ≠ "" := by
        have hfirst : Text.joined sep ((p :: ps).map String.toList) ≠ [] :=
          Text.joined_ne_nil (h p List.mem_cons_self).2.1 _
        rw [htrimmed]
        intro hempty
        exact hfirst (by rw [← hjoined, hempty]; rfl)
      rw [splitTopLevel_pieces hne hreads hfilled, hruns, List.map_map]
      refine congrArg Except.ok ((List.map_congr_left fun q hq => ?_).trans (List.map_id _))
      simp [trimmed, (h q hq).2.2]

/-- A piece is a text that is split into itself alone. -/
theorem isPiece_iff {p : String} :
    IsPiece sep p.toList ↔ splitTopLevel (some sep) p = .ok [p] := by
  constructor
  · intro h
    have hjoined : splitTopLevel (some sep) (sep.toString.intercalate [p]) = .ok [p] :=
      splitTopLevel_intercalate (by simpa using h)
    rwa [String.intercalate_singleton] at hjoined
  · intro h
    exact isPiece_of_splitTopLevel h p List.mem_cons_self

/-- Joining undoes splitting. The pieces of a text are trimmed and not blank, each of them is
split into itself alone, and joined again they are split into the same pieces; and so are any
texts of this kind. -/
theorem splitTopLevel_joined (sep : Char) (pieces : List String) :
    (∀ s, splitTopLevel (some sep) s = .ok pieces →
      splitTopLevel (some sep) (sep.toString.intercalate pieces) = .ok pieces ∧
      ∀ p ∈ pieces, ¬IsBlank p.toList ∧ trimmed p = p ∧ splitTopLevel (some sep) p = .ok [p]) ∧
    ((∀ p ∈ pieces, p ≠ "" ∧ trimmed p = p ∧ splitTopLevel (some sep) p = .ok [p]) →
      splitTopLevel (some sep) (sep.toString.intercalate pieces) = .ok pieces) := by
  refine ⟨fun s hs => ?_, fun h => ?_⟩
  · have hpieces := isPiece_of_splitTopLevel hs
    refine ⟨splitTopLevel_intercalate hpieces, fun p hp => ?_⟩
    obtain ⟨-, hne, htrim⟩ := hpieces p hp
    refine ⟨fun hblank => hne (htrim ▸ Text.trim_eq_nil_iff.mpr hblank), ?_,
      isPiece_iff.mp (hpieces p hp)⟩
    rw [trimmed, htrim, String.ofList_toList]
  · exact splitTopLevel_intercalate fun p hp => isPiece_iff.mpr (h p hp).2.2

/-- The comma in the brackets, and the space behind it, belong to the first of two pieces. -/
theorem splitTopLevel_joined_memory :
    splitTopLevel (some ',') " [Rn, #Imm]{!} ,Rd" = .ok ["[Rn, #Imm]{!}", "Rd"] ∧
      splitTopLevel (some ',') "[Rn, #Imm]{!},Rd" = .ok ["[Rn, #Imm]{!}", "Rd"] ∧
      splitTopLevel (some ',') "[Rn, #Imm]{!}" = .ok ["[Rn, #Imm]{!}"] := by
  have hsplit : splitTopLevel (some ',') " [Rn, #Imm]{!} ,Rd" = .ok ["[Rn, #Imm]{!}", "Rd"] := by
    decide +kernel
  obtain ⟨hpieces, hjoin⟩ := splitTopLevel_joined ',' ["[Rn, #Imm]{!}", "Rd"]
  have halone := (hpieces _ hsplit).2
  have hagain := hjoin fun p hp => ⟨by rintro rfl; simp at hp, (halone p hp).2⟩
  exact ⟨hsplit, hagain, (halone _ List.mem_cons_self).2.2⟩

end InstrTable
