import InstrTable.Proofs.Keyed
import InstrTable.Proofs.Text.Digits
import InstrTable.Proofs.Text.Pieces
import InstrTable.Proofs.Text.Words
import InstrTable.Register
import Mathlib.Data.List.Induction
import Mathlib.Data.List.TakeWhile

/-!
What the lines of the register table spell, and that the table keeps the last spelling of every
name. A line spells one name, or all the names of a range.
-/

namespace InstrTable

namespace RegisterRange

/-- A name in which a range is written. A line feed behind it does not count. -/
def IsWritten (r : RegisterRange) (name : String) : Prop :=
  ∃ first last ending, name.toList = r.front ++ first ++ '-' :: last ++ r.back ++ ending ∧
    r.front ≠ [] ∧ (∀ c ∈ r.front, isStem c = true) ∧ Text.nat? first = some r.first ∧
    Text.nat? last = some r.last ∧ (∀ c ∈ r.back, isStem c = true) ∧
    (ending = [] ∨ ending = ['\n'])

end RegisterRange

/-- A line of the register table: a text that stands for registers of a type. If it has a place
in the list of names it is one of them, else it is what any register of the type is called. -/
structure RegisterLine where
  type : Scalar
  kind : Scalar
  text : String
  place : Option Nat

namespace RegisterLine

/-- The names that a line spells, with the number of the register. -/
inductive Spells : RegisterLine → String → Option Nat → Prop where
  | any {type kind : Scalar} {text : String} : text ≠ "" → Spells ⟨type, kind, text, none⟩ text none
  /-- A range spells its front and its back around every number from its first to its last. -/
  | range {type kind : Scalar} {text : String} {i k : Nat} {r : RegisterRange} :
    r.IsWritten text → r.first ≤ k → k ≤ r.last →
    Spells ⟨type, kind, text, some i⟩ (String.ofList (r.front ++ Text.digits k ++ r.back)) (some k)
  /-- Any other name spells itself, with its place as the number. -/
  | single {type kind : Scalar} {text : String} {i : Nat} :
    (∀ r : RegisterRange, ¬r.IsWritten text) → Spells ⟨type, kind, text, some i⟩ text (some i)

end RegisterLine

/-- The lines of a type: what any of its registers is called, and the list of their names. -/
def RegisterClass.lines (type : Scalar) (c : RegisterClass) : List RegisterLine :=
  let kind := c.kind.getD type
  ⟨type, kind, c.any, none⟩ :: c.names.zipIdx.map fun (name, i) => ⟨type, kind, name, some i⟩

/-- The lines of a register table, type by type. -/
def registerLines (types : List (Scalar × RegisterClass)) : List RegisterLine :=
  types.flatMap fun (type, c) => c.lines type

/-- Whether one name is spelled before another: in some line, as some number, that come before
every line and number by which the other is spelled. -/
def SpelledBefore (lines : List RegisterLine) (name name' : String) : Prop :=
  ∃ (p : Nat) (l : RegisterLine) (i : Option Nat), lines[p]? = some l ∧ l.Spells name i ∧
    ∀ (q : Nat) (l' : RegisterLine) (j : Option Nat), lines[q]? = some l' → l'.Spells name' j →
      p < q ∨ p = q ∧ i < j

/-! ### Ranges -/

namespace RegisterRange

variable {c : Char} {name : String} {r : RegisterRange}

theorem toNat_of_isStem (h : isStem c = true) :
    c.toNat = 40 ∨ c.toNat = 41 ∨ 65 ≤ c.toNat ∧ c.toNat ≤ 122 := by
  have hletter : ((decide ('A'.val ≤ c.val ∧ c.val ≤ 'Z'.val) ||
      decide ('a'.val ≤ c.val) && decide (c.val ≤ 'z'.val)) || c == '(' || c == ')') = true := h
  simp only [Bool.or_eq_true, Bool.and_eq_true, decide_eq_true_eq, beq_iff_eq] at hletter
  obtain ((⟨hlow, hhigh⟩ | ⟨hlow, hhigh⟩) | rfl) | rfl := hletter
  · exact .inr (.inr ⟨UInt32.le_iff_toNat_le.mp hlow,
      Nat.le_trans (UInt32.le_iff_toNat_le.mp hhigh) (by decide)⟩)
  · exact .inr (.inr ⟨Nat.le_trans (by decide) (UInt32.le_iff_toNat_le.mp hlow),
      UInt32.le_iff_toNat_le.mp hhigh⟩)
  · exact .inl rfl
  · exact .inr (.inl rfl)

/-- No letter is a digit, of whatever script. -/
theorem isDigit_of_isStem (h : isStem c = true) : Text.isDigit c = false := by
  have hzeros : ∀ z ∈ Text.decimalZeros, z = 48 ∨ 128 ≤ z := by decide
  have hstem := toNat_of_isStem h
  simp only [Text.isDigit, Text.digit?, Option.isSome_map, Option.isSome_eq_false_iff,
    Option.isNone_iff_eq_none, List.find?_eq_none]
  intro z hz
  have hz := hzeros z hz
  simp
  omega

theorem exists_cons_of_nat? {cs : List Char} {n : Nat} (h : Text.nat? cs = some n) :
    ∃ c rest, cs = c :: rest ∧ Text.isDigit c = true := by
  cases cs with
  | nil => simp at h
  | cons c rest => exact ⟨c, rest, rfl, Text.isDigit_of_nat? h c List.mem_cons_self⟩

/-- What is read of a name is the range that is written in it. -/
theorem isWritten_of_ofName? (h : ofName? name = some r) : r.IsWritten name := by
  unfold ofName? at h
  dsimp only at h
  split at h
  · contradiction
  · next first rest hcut =>
    obtain ⟨hdrop, -⟩ := Text.cutFirst?_eq_some_iff.mp hcut
    split at h
    · contradiction
    · next hstem =>
      split at h
      · next m n hm hn =>
        obtain rfl := Option.some.inj h
        simp only [Bool.or_eq_true, List.isEmpty_iff, Bool.not_eq_true', not_or,
          Bool.not_eq_false, List.all_eq_true] at hstem
        obtain ⟨ending, hname, hending⟩ := Text.exists_ending name.toList
        refine ⟨first, rest.takeWhile Text.isDigit, ending, ?_, hstem.1,
          fun c => List.mem_takeWhile_imp, hm, hn, hstem.2, hending⟩
        calc
          name.toList = (Text.dropFinalNewline name.toList).takeWhile isStem ++
              (Text.dropFinalNewline name.toList).dropWhile isStem ++ ending := by
            rw [List.takeWhile_append_dropWhile, ← hname]
          _ = _ := by
            rw [hdrop]
            nth_rewrite 1 [← List.takeWhile_append_dropWhile (p := Text.isDigit) (l := rest)]
            simp
      · contradiction

theorem ofName?_of_isWritten (h : r.IsWritten name) : ofName? name = some r := by
  obtain ⟨first, last, ending, hname, hne, hfront, hfirst, hlast, hback, hending⟩ := h
  have hstem (c : Char) (hc : Text.isDigit c = true) : isStem c = false := by
    by_contra hnot
    simp [isDigit_of_isStem (Bool.not_eq_false _ ▸ hnot)] at hc
  have hdropped : Text.dropFinalNewline name.toList =
      r.front ++ first ++ '-' :: last ++ r.back := by
    rw [hname]
    obtain rfl | rfl := hending
    · have hnewline : '\n' ∉ r.front ++ first ++ '-' :: last ++ r.back := by
        simp only [List.mem_append, List.mem_cons, not_or]
        exact ⟨⟨⟨fun hmem => absurd (hfront _ hmem) (by decide),
          fun hmem => absurd (Text.isDigit_of_nat? hfirst _ hmem) (by decide)⟩, by decide,
          fun hmem => absurd (Text.isDigit_of_nat? hlast _ hmem) (by decide)⟩,
          fun hmem => absurd (hback _ hmem) (by decide)⟩
      rw [List.append_nil, Text.dropFinalNewline_of_not_mem hnewline]
    · rw [Text.dropFinalNewline_concat]
  -- No stem is a digit and no digit a stem, so that each part ends where the next one begins.
  have hstart : (first ++ '-' :: (last ++ r.back)).takeWhile isStem = [] ∧
      (first ++ '-' :: (last ++ r.back)).dropWhile isStem = first ++ '-' :: (last ++ r.back) := by
    obtain ⟨c, rest, rfl, hc⟩ := exists_cons_of_nat? hfirst
    simp [hstem c hc]
  have hend : r.back.takeWhile Text.isDigit = [] ∧ r.back.dropWhile Text.isDigit = r.back := by
    cases hcs : r.back with
    | nil => simp
    | cons c rest =>
        have hc := isDigit_of_isStem (hback c (by simp [hcs]))
        simp [hc]
  have hcut : Text.cutFirst? '-' (first ++ '-' :: (last ++ r.back)) =
      some (first, last ++ r.back) := by
    refine Text.cutFirst?_eq_some_iff.mpr ⟨rfl, fun hmem => ?_⟩
    exact absurd (Text.isDigit_of_nat? hfirst _ hmem) (by decide)
  unfold ofName?
  simp only [hdropped, List.append_assoc, List.cons_append, List.takeWhile_append_of_pos hfront,
    List.dropWhile_append_of_pos hfront, hstart, hcut,
    List.takeWhile_append_of_pos (Text.isDigit_of_nat? hlast),
    List.dropWhile_append_of_pos (Text.isDigit_of_nat? hlast), hend, List.append_nil, hfirst, hlast]
  simpa [hne] using hback

theorem ofName?_eq_some_iff : ofName? name = some r ↔ r.IsWritten name :=
  ⟨isWritten_of_ofName?, ofName?_of_isWritten⟩

end RegisterRange

/-! ### Lines -/

namespace RegisterLine

variable {l : RegisterLine} {name : String} {index index' : Option Nat}

/-- The names that a line spells, in order. -/
def spelled (l : RegisterLine) : List (String × Option Nat) :=
  match l.place with
  | none => if l.text.isEmpty then [] else [(l.text, none)]
  | some i => (spellings l.text i).map fun s => (s.1, some s.2)

/-- The registers that a line adds to the table. -/
def registers (l : RegisterLine) : List (String × Register) :=
  l.spelled.map fun s => (s.1, ⟨l.type, l.kind, s.2⟩)

/-- A line without a place spells its own text, unless that is empty. -/
theorem spelled_any (type kind : Scalar) (text : String) :
    (⟨type, kind, text, none⟩ : RegisterLine).spelled =
      if text = "" then [] else [(text, none)] := by
  simp [spelled, String.isEmpty_iff]

theorem spelled_range {r : RegisterRange} {text : String} (h : r.IsWritten text)
    (type kind : Scalar) (i : Nat) : (⟨type, kind, text, some i⟩ : RegisterLine).spelled =
      (List.range' r.first (r.last + 1 - r.first)).map fun k =>
        (String.ofList (r.front ++ Text.digits k ++ r.back), some k) := by
  simp [spelled, spellings, RegisterRange.ofName?_eq_some_iff.mpr h, RegisterRange.spellings]

theorem spelled_single {text : String} (h : ∀ r : RegisterRange, ¬r.IsWritten text)
    (type kind : Scalar) (i : Nat) :
    (⟨type, kind, text, some i⟩ : RegisterLine).spelled = [(text, some i)] := by
  have hnone : RegisterRange.ofName? text = none :=
    Option.eq_none_iff_forall_ne_some.mpr fun r hr =>
      h r (RegisterRange.ofName?_eq_some_iff.mp hr)
  simp [spelled, spellings, hnone]

theorem mem_range_iff {m n k : Nat} : k ∈ List.range' m (n + 1 - m) ↔ m ≤ k ∧ k ≤ n := by
  rw [List.mem_range'_1]
  omega

theorem mem_spelled_iff : (name, index) ∈ l.spelled ↔ l.Spells name index := by
  obtain ⟨type, kind, text, place⟩ := l
  constructor
  · intro h
    cases place with
    | none =>
        simp only [spelled_any, List.mem_ite_nil_left, List.mem_singleton, Prod.mk.injEq] at h
        obtain ⟨hne, rfl, rfl⟩ := h
        exact .any hne
    | some i =>
        by_cases hrange : ∃ r : RegisterRange, r.IsWritten text
        · obtain ⟨r, hr⟩ := hrange
          rw [spelled_range hr] at h
          obtain ⟨k, hk, heq⟩ := List.mem_map.mp h
          obtain ⟨rfl, rfl⟩ := Prod.mk.inj heq
          exact .range hr (mem_range_iff.mp hk).1 (mem_range_iff.mp hk).2
        · rw [not_exists] at hrange
          rw [spelled_single hrange, List.mem_singleton] at h
          obtain ⟨rfl, rfl⟩ := Prod.mk.inj h
          exact .single hrange
  · intro h
    cases h with
    | any hne => simp [spelled_any, hne]
    | range hr hfirst hlast =>
        rw [spelled_range hr]
        exact List.mem_map_of_mem (mem_range_iff.mpr ⟨hfirst, hlast⟩)
    | single hnone => simp [spelled_single hnone]

theorem digits_injective {m n : Nat} (h : Text.digits m = Text.digits n) : m = n := by
  rw [← Text.natOfDigits_digits m, h, Text.natOfDigits_digits]

/-- A line spells a name as one number only. -/
theorem Spells.unique (h : l.Spells name index) (h' : l.Spells name index') : index = index' := by
  rw [← mem_spelled_iff] at h'
  cases h with
  | any hne => simp_all [spelled_any]
  | single hnone => simp_all [spelled_single]
  | range hr hfirst hlast =>
      rw [spelled_range hr] at h'
      obtain ⟨k, -, heq⟩ := List.mem_map.mp h'
      obtain ⟨hname, rfl⟩ := Prod.mk.inj heq
      have hlist := String.ofList_injective hname
      rw [List.append_left_inj, List.append_right_inj] at hlist
      rw [digits_injective hlist]

/-- The numbers of a line grow. -/
theorem pairwise_spelled (l : RegisterLine) : l.spelled.Pairwise fun s s' => s.2 < s'.2 := by
  obtain ⟨type, kind, text, place⟩ := l
  cases place with
  | none =>
      rw [spelled_any]
      split <;> simp
  | some i =>
      by_cases hrange : ∃ r : RegisterRange, r.IsWritten text
      · obtain ⟨r, hr⟩ := hrange
        rw [spelled_range hr, List.pairwise_map]
        exact (List.pairwise_lt_range' 1 (by decide)).imp fun hlt => Option.some_lt_some.mpr hlt
      · rw [not_exists] at hrange
        simp [spelled_single hrange]

theorem mem_registers_iff {r : Register} :
    (name, r) ∈ l.registers ↔ ∃ i, l.Spells name i ∧ r = ⟨l.type, l.kind, i⟩ := by
  simp only [registers, List.mem_map, Prod.mk.injEq, Prod.exists, mem_spelled_iff]
  constructor
  · rintro ⟨_, i, hspells, rfl, rfl⟩
    exact ⟨i, hspells, rfl⟩
  · rintro ⟨i, hspells, rfl⟩
    exact ⟨name, i, hspells, rfl, rfl⟩

/-- What a line says of a name, if it spells it. -/
theorem getLast?_registers {r : Register} :
    ((l.registers.filter fun e => e.1 = name).getLast?).map Prod.snd = some r ↔
      ∃ i, l.Spells name i ∧ r = ⟨l.type, l.kind, i⟩ := by
  have hmem {e : String × Register} (he : e ∈ l.registers.filter fun e => e.1 = name) :
      ∃ i, l.Spells name i ∧ e.2 = ⟨l.type, l.kind, i⟩ := by
    obtain ⟨hregister, hname⟩ := List.mem_filter.mp he
    obtain rfl := of_decide_eq_true hname
    exact mem_registers_iff.mp hregister
  rw [Option.map_eq_some_iff]
  constructor
  · rintro ⟨e, hlast, rfl⟩
    exact hmem (List.mem_of_getLast? hlast)
  · rintro ⟨i, hspells, rfl⟩
    have hne : (l.registers.filter fun e => e.1 = name) ≠ [] :=
      List.ne_nil_of_mem (List.mem_filter.mpr
        ⟨mem_registers_iff.mpr ⟨i, hspells, rfl⟩, decide_eq_true rfl⟩)
    refine ⟨_, List.getLast?_eq_some_getLast hne, ?_⟩
    obtain ⟨i', hspells', hregister⟩ := hmem (List.getLast_mem hne)
    rw [hregister, hspells.unique hspells']

/-- The last item of some kind is the one at the end, or it is in front of the end, which then is
of another kind. -/
theorem exists_last_concat {α : Type} {P N : α → Prop} {xs : List α} {y : α} :
    (∃ front x back, xs ++ [y] = front ++ x :: back ∧ P x ∧ ∀ x' ∈ back, N x') ↔
      P y ∨ N y ∧ ∃ front x back, xs = front ++ x :: back ∧ P x ∧ ∀ x' ∈ back, N x' := by
  constructor
  · rintro ⟨front, x, back, heq, hx, hback⟩
    obtain rfl | ⟨back, y', rfl⟩ := List.eq_nil_or_concat back
    · obtain ⟨-, heq⟩ := List.append_inj' heq rfl
      exact .inl (List.singleton_inj.mp heq ▸ hx)
    · rw [List.concat_eq_append, ← List.cons_append, ← List.append_assoc] at heq
      obtain ⟨rfl, hend⟩ := List.append_inj' heq rfl
      obtain rfl := List.singleton_inj.mp hend
      simp only [List.concat_eq_append, List.forall_mem_append, List.forall_mem_singleton] at hback
      exact .inr ⟨hback.2, front, x, back, rfl, hx, hback.1⟩
  · rintro (hy | ⟨hy, front, x, back, rfl, hx, hback⟩)
    · exact ⟨xs, y, [], rfl, hy, by simp⟩
    · refine ⟨front, x, back ++ [y], by simp, hx, ?_⟩
      simpa [or_imp, forall_and] using ⟨hback, hy⟩

/-- The last line that spells a name says what it stands for. -/
theorem get?_ofList_registers {lines : List RegisterLine} {r : Register} :
    (Keyed.ofList (lines.flatMap registers)).get? name = some r ↔
      ∃ front l back, lines = front ++ l :: back ∧
        (∃ i, l.Spells name i ∧ r = ⟨l.type, l.kind, i⟩) ∧ ∀ l' ∈ back, ∀ j, ¬l'.Spells name j := by
  rw [Keyed.get?_ofList]
  -- From the last line on, since a later line overwrites what an earlier one says.
  induction lines using List.reverseRecOn with
  | nil => simp
  | append_singleton lines l ih =>
      have hnone : ((l.registers.filter fun e => e.1 = name).getLast?).map Prod.snd = none ↔
          ∀ j, ¬l.Spells name j := by
        simp only [Option.eq_none_iff_forall_ne_some, Ne, getLast?_registers, not_exists, not_and]
        exact ⟨fun h j hspells => h _ j hspells rfl, fun h _ j hspells => absurd hspells (h j)⟩
      rw [exists_last_concat, ← getLast?_registers, ← hnone, ← ih, List.flatMap_append,
        List.filter_append, List.getLast?_append, List.flatMap_singleton, Option.map_or]
      exact Option.or_eq_some_iff

/-! ### The order of names -/

/-- Of two names without repetitions the earlier one comes in front of all that the later is. -/
theorem pairwise_eraseDups (texts : List String) : texts.eraseDups.Pairwise fun a b =>
    ∃ front back, texts = front ++ a :: back ∧ b ∉ front ∧ a ≠ b := by
  induction texts using List.reverseRecOn with
  | nil => simp
  | append_singleton texts t ih =>
      have hold : texts.eraseDups.Pairwise fun a b =>
          ∃ front back, texts ++ [t] = front ++ a :: back ∧ b ∉ front ∧ a ≠ b := by
        refine ih.imp ?_
        rintro a b ⟨front, back, rfl, hb, hne⟩
        exact ⟨front, back ++ [t], by simp, hb, hne⟩
      rw [List.eraseDups_append]
      by_cases ht : t ∈ texts
      · simpa [List.removeAll, ht] using hold
      · have hnew : ([t].removeAll texts).eraseDups = [t] := by
          simp [List.removeAll, ht, List.eraseDups_cons]
        rw [hnew, List.pairwise_append]
        refine ⟨hold, List.pairwise_singleton _ _, fun a ha b hb => ?_⟩
        obtain rfl := List.mem_singleton.mp hb
        obtain ⟨front, back, rfl⟩ := List.append_of_mem (List.mem_eraseDups.mp ha)
        refine ⟨front, back ++ [b], by simp, fun hmem => ht (by simp [hmem]), ?_⟩
        rintro rfl
        simp at ht

/-- The names that lines spell, with the line and the number, in order. -/
def positions (lines : List RegisterLine) : List (String × Nat × Option Nat) :=
  lines.zipIdx.flatMap fun (l, p) => l.spelled.map fun s => (s.1, p, s.2)

theorem mem_positions_iff {lines : List RegisterLine} {p : Nat} :
    (name, p, index) ∈ positions lines ↔
      ∃ l : RegisterLine, lines[p]? = some l ∧ l.Spells name index := by
  simp only [positions, List.mem_flatMap, List.mem_map, Prod.mk.injEq, Prod.exists,
    List.mk_mem_zipIdx_iff_getElem?]
  constructor
  · rintro ⟨l, _, hl, _, _, hs, rfl, rfl, rfl⟩
    exact ⟨l, hl, mem_spelled_iff.mp hs⟩
  · rintro ⟨l, hl, hspells⟩
    exact ⟨l, p, hl, name, index, mem_spelled_iff.mpr hspells, rfl, rfl, rfl⟩

theorem map_fst_positions (lines : List RegisterLine) :
    (positions lines).map Prod.fst = (lines.flatMap registers).map Prod.fst := by
  have hzip : lines.flatMap registers = lines.zipIdx.flatMap fun lp => lp.1.registers := by
    nth_rewrite 1 [← List.zipIdx_map_fst 0 lines]
    rw [List.flatMap_map]
  simp only [hzip, positions, registers, List.map_flatMap, List.map_map, Function.comp_def]

theorem pairwise_positions (lines : List RegisterLine) : (positions lines).Pairwise fun s s' =>
    s.2.1 < s'.2.1 ∨ s.2.1 = s'.2.1 ∧ s.2.2 < s'.2.2 := by
  rw [positions, List.pairwise_flatMap]
  constructor
  · rintro ⟨l, p⟩ -
    rw [List.pairwise_map]
    exact (pairwise_spelled l).imp fun hlt => .inr ⟨rfl, hlt⟩
  · have hplaces : (lines.zipIdx.map Prod.snd).Pairwise (· < ·) := by
      rw [List.zipIdx_map_snd]
      exact List.pairwise_lt_range' 1 (by decide)
    refine (List.pairwise_map.mp hplaces).imp fun hlt s hs s' hs' => ?_
    obtain ⟨_, -, rfl⟩ := List.mem_map.mp hs
    obtain ⟨_, -, rfl⟩ := List.mem_map.mp hs'
    exact .inl hlt

theorem pairwise_spelledBefore (lines : List RegisterLine) :
    (Keyed.ofList (lines.flatMap registers)).keys.Pairwise (SpelledBefore lines) := by
  rw [Keyed.keys_ofList, ← map_fst_positions]
  refine (pairwise_eraseDups _).imp ?_
  rintro _ name' ⟨front, back, hnames, hfront, hne⟩
  obtain ⟨before, rest, hpositions, rfl, hrest⟩ := List.map_eq_append_iff.mp hnames
  obtain ⟨⟨name, p, i⟩, after, rfl, rfl, -⟩ := List.map_eq_cons_iff.mp hrest
  have hhere : (name, p, i) ∈ positions lines := by
    rw [hpositions]
    exact List.mem_append_right _ List.mem_cons_self
  obtain ⟨l, hl, hspells⟩ := mem_positions_iff.mp hhere
  refine ⟨p, l, i, hl, hspells, fun q l' j hl' hspells' => ?_⟩
  have hthere : (name', q, j) ∈ positions lines := mem_positions_iff.mpr ⟨l', hl', hspells'⟩
  have hsorted := pairwise_positions lines
  rw [hpositions] at hthere hsorted
  -- The other name is spelled nowhere in front, and all that is spelled behind is behind in order.
  obtain hbefore | hhead | hafter := by simpa only [List.mem_append, List.mem_cons] using hthere
  · exact absurd (List.mem_map_of_mem hbefore) hfront
  · exact absurd (congrArg Prod.fst hhead).symm hne
  · exact (List.pairwise_cons.mp (List.pairwise_append.mp hsorted).2.1).1 _ hafter

end RegisterLine

theorem RegisterClass.registers_eq (type : Scalar) (c : RegisterClass) :
    c.registers type = (c.lines type).flatMap RegisterLine.registers := by
  have hany (kind : Scalar) : (⟨type, kind, c.any, none⟩ : RegisterLine).registers =
      if c.any.isEmpty then [] else [(c.any, ⟨type, kind, none⟩)] := by
    simp only [RegisterLine.registers, RegisterLine.spelled]
    split <;> rfl
  simp only [registers, lines, List.flatMap_cons, List.flatMap_map, hany]
  simp only [RegisterLine.registers, RegisterLine.spelled, List.map_map, Function.comp_def]

theorem registerTable_eq (types : List (Scalar × RegisterClass)) :
    registerTable types = .ofList ((registerLines types).flatMap RegisterLine.registers) := by
  simp only [registerTable, registerLines, List.flatMap_assoc, RegisterClass.registers_eq]

/-- The register table holds the names that its lines spell, and of each name what the last line
that spells it says. The names stand in the order in which they are first spelled. -/
theorem registerTable_spells (types : List (Scalar × RegisterClass)) :
    (∀ name, name ∈ (registerTable types).keys ↔
      ∃ l ∈ registerLines types, ∃ i, l.Spells name i) ∧
    (∀ name r, (registerTable types).get? name = some r ↔
      ∃ front l back i, registerLines types = front ++ l :: back ∧ l.Spells name i ∧
        (∀ l' ∈ back, ∀ j, ¬l'.Spells name j) ∧ r = ⟨l.type, l.kind, i⟩) ∧
    (registerTable types).keys.Pairwise (SpelledBefore (registerLines types)) := by
  rw [registerTable_eq]
  refine ⟨fun name => ?_, fun name r => ?_, RegisterLine.pairwise_spelledBefore _⟩
  · rw [Keyed.keys_ofList, List.mem_eraseDups]
    simp only [List.mem_map, List.mem_flatMap, Prod.exists, exists_and_right, exists_eq_right,
      RegisterLine.mem_registers_iff]
    constructor
    · rintro ⟨_, l, hl, i, hspells, -⟩
      exact ⟨l, hl, i, hspells⟩
    · rintro ⟨l, hl, i, hspells⟩
      exact ⟨_, l, hl, i, hspells, rfl⟩
  · rw [RegisterLine.get?_ofList_registers]
    constructor
    · rintro ⟨front, l, back, hlines, ⟨i, hspells, hr⟩, hback⟩
      exact ⟨front, l, back, i, hlines, hspells, hback, hr⟩
    · rintro ⟨front, l, back, i, hlines, hspells, hback, hr⟩
      exact ⟨front, l, back, hlines, ⟨i, hspells, hr⟩, hback⟩

example : (registerTable [(.text "k", { any := "k", names := ["k1-2", "k"] })]).entries.map
    (fun e => (e.1, e.2.index)) = [("k", some 1), ("k1", some 1), ("k2", some 2)] := by
  decide +kernel

end InstrTable
