import InstrTable.Proofs.TopLevel.Joining
import Mathlib.Order.Bounds.Defs

/-!
Where a bracket is closed. The scan counts the brackets of one pair and passes over all other
characters, so it stops at the first place up to which that pair balances, whatever else is
opened or closed in between. What has no closing bracket is scanned up to the end.
-/

namespace InstrTable

/-- The pairs of brackets, the opening one first. -/
def bracketPairs : List (Char × Char) := [('(', ')'), ('<', '>'), ('[', ']'), ('{', '}')]

theorem mem_bracketPairs_iff {opening closing : Char} :
    (opening, closing) ∈ bracketPairs ↔ closing? opening = some closing := by
  simp only [bracketPairs, closing?]
  split <;> simp_all [eq_comm]

theorem ne_of_closing? {opening closing : Char} (h : closing? opening = some closing) :
    opening ≠ closing := by
  rintro rfl
  simp only [closing?] at h
  split at h <;> simp at h

/-- By how many the opening brackets of a pair outnumber the closing ones. -/
def surplus (opening closing : Char) (cs : List Char) : Int :=
  cs.count opening - cs.count closing

section scan

variable {opening closing : Char}

theorem surplus_pos_iff {cs : List Char} :
    0 < surplus opening closing cs ↔ cs.count closing < cs.count opening := by
  simp only [surplus]
  omega

theorem surplus_eq_zero_iff {cs : List Char} :
    surplus opening closing cs = 0 ↔ cs.count closing = cs.count opening := by
  simp only [surplus]
  omega

@[simp]
theorem surplus_nil : surplus opening closing [] = 0 := rfl

theorem surplus_opening (hne : opening ≠ closing) (cs : List Char) :
    surplus opening closing (opening :: cs) = surplus opening closing cs + 1 := by
  simp only [surplus, List.count_cons_self, List.count_cons_of_ne hne]
  omega

theorem surplus_closing (hne : opening ≠ closing) (cs : List Char) :
    surplus opening closing (closing :: cs) = surplus opening closing cs - 1 := by
  simp only [surplus, List.count_cons_self, List.count_cons_of_ne hne.symm]
  omega

theorem surplus_other {c : Char} (hopening : c ≠ opening) (hclosing : c ≠ closing)
    (cs : List Char) : surplus opening closing (c :: cs) = surplus opening closing cs := by
  simp only [surplus, List.count_cons_of_ne hopening, List.count_cons_of_ne hclosing]

/-- A scan stops at the bracket that closes the last open one. Otherwise it goes on, and the
open brackets together with the surplus of what is still to come stay the same. -/
theorem closingOffset?_step (hne : opening ≠ closing) (pending : Nat) (c : Char)
    (cs : List Char) :
    (c = closing ∧ pending = 0 ∧
      closingOffset? opening (some closing) pending (c :: cs) = some 0) ∨
    ∃ pending' : Nat,
      closingOffset? opening (some closing) pending (c :: cs) =
        (closingOffset? opening (some closing) pending' cs).map (· + 1) ∧
      ∀ front, pending + surplus opening closing (c :: front) =
        pending' + surplus opening closing front := by
  by_cases hopening : c = opening
  · subst hopening
    refine .inr ⟨pending + 1, by simp only [closingOffset?, if_true], fun front => ?_⟩
    rw [surplus_opening hne]
    omega
  · by_cases hclosing : c = closing
    · subst hclosing
      cases pending with
      | zero => exact .inl ⟨rfl, rfl, by simp only [closingOffset?, if_neg hopening, if_true]⟩
      | succ pending =>
          refine .inr ⟨pending, by simp only [closingOffset?, if_neg hopening, if_true],
            fun front => ?_⟩
          rw [surplus_closing hne]
          omega
    · refine .inr ⟨pending, ?_, fun front => by rw [surplus_other hopening hclosing]⟩
      cases pending <;> simp only [closingOffset?, if_neg hopening, Option.some.injEq,
        if_neg hclosing]

/-- Before the place where a scan stops, a bracket is open. -/
theorem surplus_take_pos (hne : opening ≠ closing) {pending m : Nat} {cs : List Char}
    (h : m ≤ (closingOffset? opening (some closing) pending cs).getD cs.length) :
    0 < pending + 1 + surplus opening closing (cs.take m) := by
  induction cs generalizing pending m with
  | nil =>
      rw [List.take_nil, surplus_nil]
      omega
  | cons c cs ih =>
      cases m with
      | zero =>
          rw [List.take_zero, surplus_nil]
          omega
      | succ m =>
          rcases closingOffset?_step hne pending c cs with
            ⟨-, -, hstop⟩ | ⟨pending', hstep, hsurplus⟩
          · rw [hstop, Option.getD_some] at h
            omega
          · rw [hstep, List.length_cons, Option.getD_map (· + 1)] at h
            have hfront := hsurplus (cs.take m)
            have hrest : 0 < pending' + 1 + surplus opening closing (cs.take m) := ih (by omega)
            rw [List.take_succ_cons]
            omega

/-- Where a scan stops, every bracket is closed. -/
theorem surplus_take_eq_zero (hne : opening ≠ closing) {pending k : Nat} {cs : List Char}
    (h : closingOffset? opening (some closing) pending cs = some k) :
    pending + 1 + surplus opening closing (cs.take (k + 1)) = 0 := by
  induction cs generalizing pending k with
  | nil => simp [closingOffset?] at h
  | cons c cs ih =>
      rcases closingOffset?_step hne pending c cs with
        ⟨rfl, rfl, hstop⟩ | ⟨pending', hstep, hsurplus⟩
      · obtain rfl : 0 = k := Option.some.inj (hstop.symm.trans h)
        rw [List.take_succ_cons, List.take_zero, surplus_closing hne, surplus_nil]
        rfl
      · rw [hstep] at h
        obtain ⟨j, hj, rfl⟩ := Option.map_eq_some_iff.mp h
        have hfront := hsurplus (cs.take (j + 1))
        have hrest := ih hj
        rw [List.take_succ_cons]
        omega

/-- A character that opens nothing is not closed. -/
theorem closingOffset?_none (c : Char) (pending : Nat) (cs : List Char) :
    closingOffset? c none pending cs = none := by
  induction cs generalizing pending with
  | nil => rfl
  | cons d cs ih => cases pending <;> simp [closingOffset?, ih]

end scan

section closingIndex

variable {s : String} {i : Nat} {opening closing : Char}

/-- Whether the span from position `i` up to a later position `j` holds as many closing brackets
of a pair as opening ones. -/
def IsBalanced (s : String) (opening closing : Char) (i j : Nat) : Prop :=
  i < j ∧ j < s.length ∧
    (s.toList.extract i (j + 1)).count closing = (s.toList.extract i (j + 1)).count opening

/-- `ClosesAt s opening closing i r`: the bracket at position `i` is closed at position `r`, the
first up to which its pair balances, or nothing closes it and `r` is the length of the text. -/
structure ClosesAt (s : String) (opening closing : Char) (i r : Nat) : Prop where
  least : r < s.length → IsLeast {j | IsBalanced s opening closing i j} r
  closing_at : r < s.length → s.toList[r]? = some closing
  open_before : ∀ j, i ≤ j → j < r →
    (s.toList.extract i (j + 1)).count closing < (s.toList.extract i (j + 1)).count opening
  eq_length_iff : r = s.length ↔ ¬∃ j, IsBalanced s opening closing i j

/-- The surplus of a span that starts at an opening bracket. -/
theorem surplus_extract (hne : opening ≠ closing) (here : s.toList[i]? = some opening) (m : Nat) :
    surplus opening closing (s.toList.extract i (i + m + 1)) =
      surplus opening closing ((s.toList.drop (i + 1)).take m) + 1 := by
  have hlen : i + m + 1 - i = m + 1 := by omega
  rw [List.extract_eq_take_drop, toList_drop_eq_cons here, hlen, List.take_succ_cons,
    surplus_opening hne]

/-- A place up to which a bracket stays open, and where the pair balances unless it is the end,
is where the bracket is closed. -/
theorem ClosesAt.of_open {r : Nat} (hle : r ≤ s.length)
    (hopen : ∀ j, i ≤ j → j < r →
      (s.toList.extract i (j + 1)).count closing < (s.toList.extract i (j + 1)).count opening)
    (hbalanced : r < s.length → IsBalanced s opening closing i r)
    (hclosing : r < s.length → s.toList[r]? = some closing) : ClosesAt s opening closing i r := by
  have hfirst : ∀ j, IsBalanced s opening closing i j → r ≤ j := by
    rintro j ⟨hj, -, hcount⟩
    by_contra hlt
    exact absurd hcount (hopen j hj.le (Nat.not_le.mp hlt)).ne
  refine ⟨fun hr => ⟨hbalanced hr, hfirst⟩, hclosing, hopen, ?_, fun hnone => ?_⟩
  · rintro rfl ⟨j, hj⟩
    exact absurd (hfirst j hj) (Nat.not_le.mpr hj.2.1)
  · by_contra hne
    exact hnone ⟨r, hbalanced (Nat.lt_of_le_of_ne hle hne)⟩

section closed

variable (here : s.toList[i]? = some opening) (hpair : closing? opening = some closing)

include here hpair

/-- Before the place where the scan ends, more brackets are opened than closed. -/
theorem count_lt_of_lt_closingOffset? {j : Nat} (hij : i ≤ j)
    (hj : j < i + 1 + (closingOffset? opening (some closing) 0 (s.toList.drop (i + 1))).getD
      (s.length - (i + 1))) :
    (s.toList.extract i (j + 1)).count closing < (s.toList.extract i (j + 1)).count opening := by
  have hne := ne_of_closing? hpair
  obtain ⟨m, rfl⟩ := Nat.exists_eq_add_of_le hij
  have hrest : (s.toList.drop (i + 1)).length = s.length - (i + 1) := by
    rw [List.length_drop, String.length_toList]
  rw [← hrest] at hj
  have hpos : 0 < ((0 : Nat) : Int) + 1 +
      surplus opening closing ((s.toList.drop (i + 1)).take m) :=
    surplus_take_pos hne (by omega)
  rw [← surplus_pos_iff, surplus_extract hne here]
  omega

/-- Where the scan stops, the pair balances. -/
theorem isBalanced_of_closingOffset? {k : Nat}
    (h : closingOffset? opening (some closing) 0 (s.toList.drop (i + 1)) = some k) :
    IsBalanced s opening closing i (i + 1 + k) := by
  have hne := ne_of_closing? hpair
  have hinside : i + 1 + k < s.length := ((closingOffset?_eq_some_iff here).mp (hpair ▸ h)).2
  have hzero := surplus_take_eq_zero hne h
  have hplace : i + 1 + k + 1 = i + (k + 1) + 1 := by omega
  refine ⟨by omega, hinside, surplus_eq_zero_iff.mp ?_⟩
  rw [hplace, surplus_extract hne here]
  omega

theorem closesAt_closingOffset? :
    ClosesAt s opening closing i
      (i + 1 + (closingOffset? opening (some closing) 0 (s.toList.drop (i + 1))).getD
        (s.length - (i + 1))) := by
  have hi := lt_length_of_getElem? here
  have hopen := fun j => count_lt_of_lt_closingOffset? here hpair (j := j)
  cases hoffset : closingOffset? opening (some closing) 0 (s.toList.drop (i + 1)) with
  | none =>
      rw [hoffset, Option.getD_none] at hopen
      rw [Option.getD_none]
      exact .of_open (by omega) hopen (fun h => by omega) (fun h => by omega)
  | some k =>
      rw [hoffset, Option.getD_some] at hopen
      rw [Option.getD_some]
      have hbalanced := isBalanced_of_closingOffset? here hpair hoffset
      refine .of_open hbalanced.2.1.le hopen (fun _ => hbalanced) fun _ => ?_
      obtain ⟨inner, c, rest, hdrop, rfl, hclosing, -⟩ := exists_of_closingOffset? hoffset
      obtain rfl : closing = c := Option.some.inj hclosing
      rw [← List.getElem?_drop, hdrop, List.getElem?_append_right (Nat.le_refl _),
        Nat.sub_self, List.getElem?_cons_zero]

end closed

/-- A scan ends behind its position, in the text or right behind it. -/
theorem exists_closingIndex {c : Char} (here : s.toList[i]? = some c) :
    ∃ r : Nat, closingIndex s (i : Int) = .ok (r : Int) ∧ i < r ∧ r ≤ s.length ∧
      r = i + 1 + (closingOffset? c (closing? c) 0 (s.toList.drop (i + 1))).getD
        (s.length - (i + 1)) := by
  refine ⟨_, closingIndex_natCast here, by omega, ?_, rfl⟩
  have hi := lt_length_of_getElem? here
  cases hoffset : closingOffset? c (closing? c) 0 (s.toList.drop (i + 1)) with
  | none =>
      rw [Option.getD_none]
      omega
  | some k =>
      have hinside := ((closingOffset?_eq_some_iff here).mp hoffset).2
      rw [Option.getD_some]
      exact hinside.le

/-- From every position of a text the scan ends behind it. It ends at the first place up to which
the pair of the bracket there balances. If there is none, or if the character there opens
nothing, the answer is the length of the text. -/
theorem closingIndex_balances (s : String) (i : Fin s.length) :
    ∃ (c : Char) (r : Nat), s.toList[(i : Nat)]? = some c ∧
      closingIndex s ((i : Nat) : Int) = .ok (r : Int) ∧ i < r ∧ r ≤ s.length ∧
      (∀ closing, (c, closing) ∈ bracketPairs → ClosesAt s c closing i r) ∧
      (¬IsOpening c → r = s.length) := by
  have hi : (i : Nat) < s.toList.length := by
    rw [String.length_toList]
    exact i.isLt
  obtain ⟨c, here⟩ : ∃ c, s.toList[(i : Nat)]? = some c := ⟨_, List.getElem?_eq_getElem hi⟩
  obtain ⟨r, hindex, hbehind, hinside, hr⟩ := exists_closingIndex here
  refine ⟨c, r, here, hindex, hbehind, hinside, fun closing hpair => ?_, fun hplain => ?_⟩
  · have hclosing := mem_bracketPairs_iff.mp hpair
    rw [hr, hclosing]
    exact closesAt_closingOffset? here hclosing
  · have hclosing : closing? c = none := Classical.not_not.mp (mt isOpening_iff.mpr hplain)
    rw [hr, hclosing, closingOffset?_none, Option.getD_none]
    omega

-- Brackets of the other pairs need not balance.
example : closingIndex "[a)b[c]>],d" 0 = .ok 8 := by decide

end closingIndex

end InstrTable
