import InstrTable.Text.Blank
import InstrTable.Text.Digit
import Mathlib.Data.List.Basic

/-!
Numbers in decimal. The digits of a number are read as that number, and no blank stands
among them.
-/

namespace InstrTable.Text

theorem digit?_of_isDigit {c : Char} (h : c.isDigit = true) : digit? c = some (c.toNat - 48) := by
  have hrange := Char.isDigit_iff_toNat.mp h
  have hlow : 48 ≤ c.toNat := hrange.1
  have hhigh : c.toNat ≤ 57 := hrange.2
  simp [digit?, decimalZeros, hlow, hhigh]

theorem isBlank_of_isDigit {c : Char} (h : c.isDigit = true) : isBlank c = false := by
  have hrange := Char.isDigit_iff_toNat.mp h
  have hlow : 48 ≤ c.toNat := hrange.1
  have hhigh : c.toNat ≤ 57 := hrange.2
  simp only [isBlank, Bool.or_eq_false_iff, Bool.and_eq_false_imp, decide_eq_true_eq,
    decide_eq_false_iff_not, beq_eq_false_iff_ne]
  omega

theorem isDigit_of_mem_digits {n : Nat} {c : Char} (h : c ∈ digits n) : c.isDigit = true :=
  Nat.isDigit_of_mem_toDigits (by decide) (by decide) h

theorem isBlank_of_mem_digits (n : Nat) : ∀ c ∈ digits n, isBlank c = false := fun _ hc =>
  isBlank_of_isDigit (isDigit_of_mem_digits hc)

theorem digits_ne_nil (n : Nat) : digits n ≠ [] := Nat.toDigits_ne_nil

theorem natOfDigits_digits (n : Nat) : natOfDigits (digits n) = n := by
  have hvalues : natOfDigits (digits n) = Nat.ofDigitChars 10 (digits n) 0 := by
    refine List.foldl_ext _ _ 0 fun m c hc => ?_
    rw [digit?_of_isDigit (isDigit_of_mem_digits hc)]
    rfl
  rw [hvalues]
  exact Nat.ofDigitChars_ten_toDigits

theorem nat?_digits (n : Nat) : nat? (digits n) = some n := by
  have hdigits : (digits n).all isDigit = true := by
    refine List.all_eq_true.mpr fun c hc => ?_
    rw [isDigit, digit?_of_isDigit (isDigit_of_mem_digits hc)]
    rfl
  simp [nat?, digits_ne_nil, hdigits, natOfDigits_digits]

theorem isDigit_of_nat? {cs : List Char} {n : Nat} (h : nat? cs = some n) :
    ∀ c ∈ cs, isDigit c = true := by
  unfold nat? at h
  split at h
  case isTrue hdigits => exact List.all_eq_true.mp (Bool.and_eq_true_iff.mp hdigits).2
  case isFalse => contradiction

end InstrTable.Text
