import InstrTable.Bits
import Mathlib.Data.Int.Bitwise
import Mathlib.Tactic.LinearCombination
import Mathlib.Tactic.Ring

/-!
Writing a field into an integer. Its places take the low bits of what is written and all other
places keep theirs, for negative integers as well, whose leading bits are ones. An integer is
known by its bits, so the laws of reading and writing fields are laws about single places.
-/

namespace InstrTable

namespace Bits

/-! ### The bits of an integer -/

theorem testBit_natCast (n k : Nat) : (n : Int).testBit k = n.testBit k := rfl

/-- A negative integer ends in ones, any other in zeros. -/
theorem testBit_of_lt (a : Int) {k : Nat} (h : a.natAbs < 2 ^ k) :
    a.testBit k = decide (a < 0) := by
  cases a with
  | ofNat m =>
      have hm : m < 2 ^ k := h
      have hsign : ¬Int.ofNat m < 0 := Int.not_lt.mpr (Int.natCast_nonneg m)
      rw [Int.testBit, Nat.testBit_lt_two_pow hm, decide_eq_false hsign]
  | negSucc m =>
      have hm : m < 2 ^ k := Nat.lt_of_succ_lt h
      rw [Int.testBit, Nat.testBit_lt_two_pow hm, decide_eq_true (Int.negSucc_lt_zero m),
        Bool.not_false]

theorem eq_of_testBit_eq {a b : Int} (h : ∀ k, a.testBit k = b.testBit k) : a = b := by
  -- A place beyond both of them tells whether they are negative.
  have hbeyond (m n : Nat) : m < 2 ^ (m + n) :=
    Nat.lt_of_le_of_lt (Nat.le_add_right m n) Nat.lt_two_pow_self
  have hsign : a < 0 ↔ b < 0 := by
    rw [← decide_eq_decide, ← testBit_of_lt a (hbeyond _ b.natAbs), h, Nat.add_comm,
      testBit_of_lt b (hbeyond _ a.natAbs)]
  cases a with
  | ofNat m =>
      cases b with
      | ofNat n => rw [Nat.eq_of_testBit_eq h]
      | negSucc n =>
          exact absurd (hsign.mpr (Int.negSucc_lt_zero n)) (Int.not_lt.mpr (Int.natCast_nonneg m))
  | negSucc m =>
      cases b with
      | ofNat n =>
          exact absurd (hsign.mp (Int.negSucc_lt_zero m)) (Int.not_lt.mpr (Int.natCast_nonneg n))
      | negSucc n =>
          have hbits : ∀ k, m.testBit k = n.testBit k := fun k => Bool.not_inj (h k)
          rw [Nat.eq_of_testBit_eq hbits]

/-- The bits of an integer that is put in front of the `n` low bits of another. -/
theorem testBit_mul_two_pow_add (a : Int) {b : Int} {n : Nat} (hb : 0 ≤ b) (hlt : b < 2 ^ n)
    (k : Nat) :
    (a * 2 ^ n + b).testBit k = if k < n then b.testBit k else a.testBit (k - n) := by
  obtain ⟨b, rfl⟩ := Int.eq_ofNat_of_zero_le hb
  have hb' : b < 2 ^ n := by exact_mod_cast hlt
  cases a with
  | ofNat m =>
      have hsum : Int.ofNat m * 2 ^ n + (b : Int) = Int.ofNat (2 ^ n * m + b) := by
        rw [Int.ofNat_eq_natCast, Int.ofNat_eq_natCast]
        push_cast
        ring
      rw [hsum]
      exact Nat.testBit_two_pow_mul_add m hb' k
  | negSucc m =>
      -- The ones in front stay, and the low bits are those of `b` inverted twice.
      have hsum : Int.negSucc m * 2 ^ n + (b : Int) =
          Int.negSucc (2 ^ n * m + (2 ^ n - (b + 1))) := by
        rw [Int.negSucc_eq, Int.negSucc_eq]
        push_cast [Nat.succ_le_of_lt hb']
        ring
      have hrest : 2 ^ n - (b + 1) < 2 ^ n := by omega
      rw [hsum, Int.testBit, Nat.testBit_two_pow_mul_add m hrest, Nat.testBit_two_pow_sub_succ hb']
      by_cases hk : k < n
      · simp [hk, Int.testBit]
      · simp [hk, Int.testBit]

section parts

variable (a : Int) (n k : Nat)

/-- The bits of an integer that takes its `n` low bits from another. -/
theorem testBit_concat (b : Int) :
    (a * 2 ^ n + b % 2 ^ n).testBit k = if k < n then b.testBit k else a.testBit (k - n) := by
  have hpos : (0 : Int) < 2 ^ n := Int.pow_pos (by decide)
  have hconcat (a : Int) := testBit_mul_two_pow_add a (Int.emod_nonneg b hpos.ne')
    (Int.emod_lt_of_pos b hpos) k
  rw [hconcat]
  by_cases hk : k < n
  · have hlow := hconcat (b / 2 ^ n)
    rw [Int.ediv_mul_add_emod, if_pos hk] at hlow
    rw [if_pos hk, if_pos hk, hlow]
  · rw [if_neg hk, if_neg hk]

theorem testBit_ediv_two_pow : (a / 2 ^ n).testBit k = a.testBit (k + n) := by
  have h := testBit_concat (a / 2 ^ n) n (k + n) a
  have hk : ¬k + n < n := by omega
  rw [Int.ediv_mul_add_emod, if_neg hk, Nat.add_sub_cancel] at h
  exact h.symm

theorem testBit_emod_two_pow : (a % 2 ^ n).testBit k = (decide (k < n) && a.testBit k) := by
  have h := testBit_concat 0 n k a
  rw [Int.zero_mul, Int.zero_add] at h
  rw [h]
  by_cases hk : k < n
  · simp [hk]
  · simp [hk, Int.testBit]

theorem testBit_mul_two_pow :
    (a * 2 ^ n).testBit k = (decide (n ≤ k) && a.testBit (k - n)) := by
  have h := testBit_concat a n k 0
  rw [Int.zero_emod, Int.add_zero] at h
  rw [h]
  by_cases hk : k < n
  · have hle : ¬n ≤ k := Nat.not_le.mpr hk
    simp [hk, hle, Int.testBit]
  · have hle : n ≤ k := Nat.not_lt.mp hk
    simp [hk, hle]

end parts

/-! ### Reading and writing a field -/

/-- The content of the `width` places of `value` from `pos` upwards. -/
def get (value : Int) (pos width : Nat) : Int := value / 2 ^ pos % 2 ^ width

section field

variable (v x : Int) (p w k : Nat)

theorem natCast_one_shiftLeft (n : Nat) : ((1 <<< n : Nat) : Int) = 2 ^ n := by
  rw [Nat.one_shiftLeft]
  push_cast
  rfl

/-- A written field stands between what was above it and what was below it. -/
theorem set_eq :
    set v p w x = (v / 2 ^ p / 2 ^ w * 2 ^ w + x % 2 ^ w) * 2 ^ p + v % 2 ^ p := by
  have hlow := Int.ediv_mul_add_emod v (2 ^ p)
  have hhigh := Int.ediv_mul_add_emod (v / 2 ^ p) (2 ^ w)
  simp only [set, natCast_one_shiftLeft]
  linear_combination -hlow - 2 ^ p * hhigh

theorem testBit_set :
    (set v p w x).testBit k =
      if p ≤ k ∧ k < p + w then x.testBit (k - p) else v.testBit k := by
  rw [set_eq, testBit_concat, testBit_concat, testBit_ediv_two_pow, testBit_ediv_two_pow]
  by_cases hlow : k < p
  · have hout : ¬(p ≤ k ∧ k < p + w) := by omega
    rw [if_pos hlow, if_neg hout]
  · by_cases hin : k - p < w
    · have hfield : p ≤ k ∧ k < p + w := by omega
      rw [if_neg hlow, if_pos hin, if_pos hfield]
    · have hout : ¬(p ≤ k ∧ k < p + w) := by omega
      have hplace : k - p - w + w + p = k := by omega
      rw [if_neg hlow, if_neg hin, if_neg hout, hplace]

theorem testBit_get : (get v p w).testBit k = (decide (k < w) && v.testBit (k + p)) := by
  rw [get, testBit_emod_two_pow, testBit_ediv_two_pow]

theorem testBit_mask : (mask p w).testBit k = decide (p ≤ k ∧ k < p + w) := by
  rw [mask, Nat.testBit_shiftLeft, Nat.one_shiftLeft, Nat.testBit_two_pow_sub_one,
    ← Bool.decide_and]
  exact decide_eq_decide.mpr (by omega)

/-- The last of two values written into a field stays. -/
theorem set_set (y : Int) : set (set v p w x) p w y = set v p w y := by
  refine eq_of_testBit_eq fun k => ?_
  simp only [testBit_set]
  split <;> rfl

/-- A field that is written back changes nothing. -/
theorem set_get : set v p w (get v p w) = v := by
  refine eq_of_testBit_eq fun k => ?_
  rw [testBit_set, testBit_get]
  by_cases hk : p ≤ k ∧ k < p + w
  · have hw : k - p < w := by omega
    rw [if_pos hk, decide_eq_true hw, Bool.true_and, Nat.sub_add_cancel hk.1]
  · rw [if_neg hk]

/-- What is read of a written field is the low bits of what was written. -/
theorem get_set : get (set v p w x) p w = x % 2 ^ w := by
  refine eq_of_testBit_eq fun k => ?_
  rw [testBit_get, testBit_set, testBit_emod_two_pow]
  by_cases hk : k < w
  · have hfield : p ≤ k + p ∧ k + p < p + w := by omega
    rw [if_pos hfield, Nat.add_sub_cancel]
  · rw [decide_eq_false hk, Bool.false_and, Bool.false_and]

/-- Fields without a common place may be written in either order. -/
theorem set_comm (y : Int) {q u : Nat}
    (h : ∀ k, ¬((p ≤ k ∧ k < p + w) ∧ (q ≤ k ∧ k < q + u))) :
    set (set v p w x) q u y = set (set v q u y) p w x := by
  refine eq_of_testBit_eq fun k => ?_
  simp only [testBit_set]
  by_cases hfirst : p ≤ k ∧ k < p + w
  · have hsecond : ¬(q ≤ k ∧ k < q + u) := fun hsecond => h k ⟨hfirst, hsecond⟩
    rw [if_neg hsecond, if_pos hfirst, if_pos hfirst]
  · rw [if_neg hfirst, if_neg hfirst]

/-- A mask takes the content of its field out of an integer, in its place. -/
theorem land_mask : Int.land v (mask p w : Nat) = get v p w * 2 ^ p := by
  refine eq_of_testBit_eq fun k => ?_
  rw [Int.testBit_land, testBit_natCast, testBit_mask, testBit_mul_two_pow, testBit_get]
  by_cases hp : p ≤ k
  · have hw : (k - p < w) ↔ k < p + w := by omega
    rw [Nat.sub_add_cancel hp, Bool.and_comm]
    simp [hp, hw]
  · simp [hp]

/-- Writing a field is taking it out by its mask and putting the low bits of the new content in
its place. -/
theorem set_eq_lor :
    set v p w x = Int.lor (Int.land v (Int.lnot (mask p w : Nat)))
      (Int.land x (mask 0 w : Nat) <<< p) := by
  refine eq_of_testBit_eq fun k => ?_
  rw [Int.shiftLeft_eq, testBit_set, Int.testBit_lor, Int.testBit_land, Int.testBit_lnot,
    testBit_natCast, testBit_mask, testBit_mul_two_pow, Int.testBit_land, testBit_natCast,
    testBit_mask]
  by_cases hk : p ≤ k ∧ k < p + w
  · have hw : k - p < w := by omega
    simp [hk, hw]
  · have hout : ¬(p ≤ k ∧ k - p < w) := by omega
    rw [if_neg hk, decide_eq_false hk]
    by_cases hp : p ≤ k
    · have hw : ¬k - p < w := fun hw => hout ⟨hp, hw⟩
      simp [hw]
    · simp [hp]

end field

end Bits

theorem setField_natCast (v x : Int) (p w : Nat) :
    setField v p w x = .ok (Bits.set v p w x) := by
  simp [setField]

theorem fieldMask_natCast (p w : Nat) : fieldMask p w = .ok (Bits.mask p w) := by
  simp [fieldMask]

theorem setField_bind_setField (v x y : Int) (p w q u : Nat) :
    (setField v p w x >>= fun r => setField r q u y) =
      .ok (Bits.set (Bits.set v p w x) q u y) := by
  rw [setField_natCast]
  exact setField_natCast _ y q u

/-- A field takes the low bits of what is written and leaves all other bits alone. So the last
of two values stays, what a field holds may be written back, fields without a common place may
be written in either order, and the mask of the field shows what was written. -/
theorem setField_writes (v x : Int) (p w : Nat) :
    (∃ r, setField v p w x = .ok r ∧
      ∀ k, r.testBit k = if p ≤ k ∧ k < p + w then x.testBit (k - p) else v.testBit k) ∧
    (∀ y, (setField v p w x >>= fun r => setField r p w y) = setField v p w y) ∧
    setField v p w (Bits.get v p w) = .ok v ∧
    (∀ (q u : Nat) (y : Int), (∀ k, ¬((p ≤ k ∧ k < p + w) ∧ (q ≤ k ∧ k < q + u))) →
      (setField v p w x >>= fun r => setField r q u y) =
        (setField v q u y >>= fun r => setField r p w x)) ∧
    ∃ r m, setField v p w x = .ok r ∧ fieldMask p w = .ok m ∧
      Int.land r m = x % 2 ^ w * 2 ^ p := by
  refine ⟨⟨_, setField_natCast v x p w, Bits.testBit_set v x p w⟩, fun y => ?_, ?_,
    fun q u y hdisjoint => ?_, _, _, setField_natCast v x p w, fieldMask_natCast p w, ?_⟩
  · rw [setField_bind_setField, setField_natCast, Bits.set_set]
  · rw [setField_natCast, Bits.set_get]
  · rw [setField_bind_setField, setField_bind_setField, Bits.set_comm v x p w y hdisjoint]
  · rw [Bits.land_mask, Bits.get_set]

-- Of the ones of `-1`, those in places 5 and 7 are taken away.
example : setField (-1) 4 4 0b0101 = .ok (-161) := by decide

end InstrTable
