import InstrTable.BitTemplate.Reader
import InstrTable.Proofs.Text.Digits
import InstrTable.Proofs.Text.Pieces
import InstrTable.Proofs.Text.Words

/-!
What stands behind the name of a field. A slice or a width is taken from the end of a text just
where the text ends in one: no sign around a number stands in the number itself, so that it is
no matter from which side the signs are looked for.
-/

namespace InstrTable

namespace BitTemplate

variable {cs name digits : List Char} {suffix : Suffix} {n first last : Nat}

theorem not_mem_of_blankedNat? (h : blankedNat? cs = some n) {c : Char}
    (hblank : Text.isBlank c = false) (hdigit : Text.isDigit c = false) : c ∉ cs := by
  intro hc
  rcases Text.isBlank_or_mem_trim hc with hc | hc
  · simp [hblank] at hc
  · simp [Text.isDigit_of_nat? h c hc] at hdigit

/-! ### Brackets -/

/-- A number in brackets is a bit, and two with a colon between them are a slice. -/
theorem exists_of_takeBracket? (h : takeBracket? cs = some (name, suffix)) :
    ∃ inner, cs = name ++ '[' :: inner ++ [']'] ∧
      ((∃ n, suffix = .bit n) ∨ ∃ high low first last, inner = high ++ ':' :: low ∧
        suffix = .slice first last ∧ blankedNat? high = some first ∧
          blankedNat? low = some last) := by
  unfold takeBracket? at h
  split at h
  case h_2 => contradiction
  case h_1 hlast =>
    obtain ⟨front, rfl⟩ := List.getLast?_eq_some_iff.mp hlast
    rw [List.dropLast_concat] at h
    split at h
    case h_1 => contradiction
    case h_2 _ inner hcut =>
      obtain ⟨rfl, -⟩ := Text.cutLast?_eq_some_iff.mp hcut
      split at h
      case h_1 =>
        obtain ⟨n, -, hsame⟩ := Option.map_eq_some_iff.mp h
        cases hsame
        exact ⟨inner, rfl, .inl ⟨n, rfl⟩⟩
      case h_2 high low hcolon =>
        obtain ⟨rfl, -⟩ := Text.cutFirst?_eq_some_iff.mp hcolon
        split at h
        case h_1 first last hhigh hlow =>
          cases h
          exact ⟨_, rfl, .inr ⟨high, low, first, last, rfl, rfl, hhigh, hlow⟩⟩
        case h_2 => contradiction

theorem takeBracket?_slice (name : List Char) {high low : List Char}
    (hhigh : blankedNat? high = some first) (hlow : blankedNat? low = some last) :
    takeBracket? (name ++ '[' :: (high ++ ':' :: low) ++ [']']) =
      some (name, .slice first last) := by
  have hbracket : '[' ∉ high ++ ':' :: low := by
    have hnot {cs : List Char} {n : Nat} (h : blankedNat? cs = some n) : '[' ∉ cs :=
      not_mem_of_blankedNat? h (by decide) (by decide)
    simp [hnot hhigh, hnot hlow]
  have hcut : Text.cutLast? '[' (name ++ '[' :: (high ++ ':' :: low)) =
      some (name, high ++ ':' :: low) :=
    Text.cutLast?_eq_some_iff.mpr ⟨rfl, hbracket⟩
  have hcolon : Text.cutFirst? ':' (high ++ ':' :: low) = some (high, low) :=
    Text.cutFirst?_eq_some_iff.mpr ⟨rfl, not_mem_of_blankedNat? hhigh (by decide) (by decide)⟩
  rw [takeBracket?, List.getLast?_concat, List.dropLast_concat]
  simp [hcut, hcolon, hhigh, hlow]

/-- A text that ends with a number does not end with a bracket. -/
theorem takeBracket?_width (name : List Char) (h : Text.nat? (Text.trimStart digits) = some n) :
    takeBracket? (name ++ ':' :: digits) = none := by
  have hlast : (name ++ ':' :: digits).getLast? ≠ some ']' := by
    intro hlast
    have hne : Text.trimStart digits ≠ [] := by
      intro hnil
      simp [hnil] at h
    obtain ⟨blanks, hdigits⟩ : Text.trimStart digits <:+ digits := List.dropWhile_suffix _
    rw [← hdigits, ← List.cons_append, ← List.append_assoc, List.getLast?_append_of_ne_nil _ hne]
      at hlast
    exact absurd (Text.isDigit_of_nat? h _ (List.mem_of_getLast? hlast)) (by decide)
  unfold takeBracket?
  split
  · contradiction
  · rfl

/-! ### Colons -/

theorem exists_of_takeWidth? (h : takeWidth? cs = some (name, suffix)) :
    ∃ digits n, cs = name ++ ':' :: digits ∧ suffix = .width n ∧
      Text.nat? (Text.trimStart digits) = some n := by
  unfold takeWidth? at h
  split at h
  case h_1 => contradiction
  case h_2 _ digits hcut =>
    obtain ⟨rfl, -⟩ := Text.cutLast?_eq_some_iff.mp hcut
    obtain ⟨n, hn, hsame⟩ := Option.map_eq_some_iff.mp h
    cases hsame
    exact ⟨digits, n, rfl, rfl, hn⟩

theorem takeWidth?_width (name : List Char) (h : Text.nat? (Text.trimStart digits) = some n) :
    takeWidth? (name ++ ':' :: digits) = some (name, .width n) := by
  have hcut : Text.cutLast? ':' (name ++ ':' :: digits) = some (name, digits) := by
    refine Text.cutLast?_eq_some_iff.mpr ⟨rfl, fun hcolon => ?_⟩
    rcases Text.isBlank_or_mem_trimStart hcolon with hblank | hmem
    · exact absurd hblank (by decide)
    · exact absurd (Text.isDigit_of_nat? h ':' hmem) (by decide)
  rw [takeWidth?, hcut]
  simp [h]

/-! ### Either -/

/-- The name in front of a suffix, with the blanks that are trimmed from it. -/
theorem exists_of_takeSuffix? (h : takeSuffix? cs = some (name, suffix)) :
    ∃ front, Text.trim front = name ∧
      (takeBracket? (Text.dropFinalNewline cs) = some (front, suffix) ∨
        takeWidth? (Text.dropFinalNewline cs) = some (front, suffix)) := by
  obtain ⟨⟨front, suffix⟩, htaken, hsame⟩ := Option.map_eq_some_iff.mp h
  cases hsame
  exact ⟨front, rfl, (Option.or_eq_some_iff.mp htaken).imp_right And.right⟩

theorem takeSuffix?_slice_iff :
    takeSuffix? cs = some (name, .slice first last) ↔ ∃ front high low,
      Text.dropFinalNewline cs = front ++ '[' :: (high ++ ':' :: low) ++ [']'] ∧
        Text.trim front = name ∧ blankedNat? high = some first ∧ blankedNat? low = some last := by
  constructor
  · intro h
    obtain ⟨front, hname, hbracket | hwidth⟩ := exists_of_takeSuffix? h
    · obtain ⟨inner, htext, ⟨n, hbit⟩ | ⟨high, low, first, last, rfl, hslice, hhigh, hlow⟩⟩ :=
        exists_of_takeBracket? hbracket
      · contradiction
      · cases hslice
        exact ⟨front, high, low, htext, hname, hhigh, hlow⟩
    · obtain ⟨digits, n, -, hother, -⟩ := exists_of_takeWidth? hwidth
      contradiction
  · rintro ⟨front, high, low, htext, rfl, hhigh, hlow⟩
    rw [takeSuffix?, htext, takeBracket?_slice front hhigh hlow, Option.some_or]
    rfl

theorem takeSuffix?_width_iff :
    takeSuffix? cs = some (name, .width n) ↔ ∃ front digits,
      Text.dropFinalNewline cs = front ++ ':' :: digits ∧ Text.trim front = name ∧
        Text.nat? (Text.trimStart digits) = some n := by
  constructor
  · intro h
    obtain ⟨front, hname, hbracket | hwidth⟩ := exists_of_takeSuffix? h
    · obtain ⟨inner, -, ⟨n, hother⟩ | ⟨high, low, first, last, -, hother, -⟩⟩ :=
        exists_of_takeBracket? hbracket
      · contradiction
      · contradiction
    · obtain ⟨digits, m, htext, hsame, hm⟩ := exists_of_takeWidth? hwidth
      cases hsame
      exact ⟨front, digits, htext, hname, hm⟩
  · rintro ⟨front, digits, htext, rfl, hn⟩
    rw [takeSuffix?, htext, takeBracket?_width front hn, takeWidth?_width front hn, Option.none_or]
    rfl

end BitTemplate

end InstrTable
