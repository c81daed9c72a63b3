import InstrTable.Operand.Arm
import InstrTable.Operand.X86
import InstrTable.Proofs.Record.Operands
import InstrTable.Proofs.Text.Pieces
import Mathlib.Data.String.Basic

/-!
The core of an operand token. Decorations are written around it, each of them once at most and
in a fixed order; what each looks like is told here by its text, and the core is what is left.
-/

namespace InstrTable

/-- What is left of a text when a decoration is removed from it, if it is there. `takes cs rest`
says that it is, and that `rest` is left. -/
def Removes (takes : List Char → List Char → Prop) (cs rest : List Char) : Prop :=
  takes cs rest ∨ (∀ other, ¬takes cs other) ∧ rest = cs

/-- A decoration that is found and taken off by a function. -/
theorem removes_iff {takes : List Char → List Char → Prop} {cs rest : List Char}
    {take? : Option (List Char)} (h : ∀ rest, take? = some rest ↔ takes cs rest) :
    Removes takes cs rest ↔ take?.getD cs = rest := by
  cases take? with
  | none =>
      have hnone : ∀ other, ¬takes cs other := fun other hother => by
        simpa using (h other).mpr hother
      simp [Removes, hnone, eq_comm]
  | some found =>
      have hfound : takes cs found := (h found).mp rfl
      have hnot : ¬∀ other, ¬takes cs other := fun hnone => hnone found hfound
      simp [Removes, hnot, ← h rest]

theorem exists_removes (takes : List Char → List Char → Prop) (cs : List Char) :
    ∃ rest, Removes takes cs rest := by
  by_cases h : ∃ rest, takes cs rest
  · obtain ⟨rest, hrest⟩ := h
    exact ⟨rest, .inl hrest⟩
  · exact ⟨cs, .inr ⟨not_exists.mp h, rfl⟩⟩

namespace Operand

/-- A run of decimal digits. -/
def IsNumber (cs : List Char) : Prop := cs ≠ [] ∧ ∀ c ∈ cs, Text.isDigit c = true

/-- A letter for an access, the range of bits that it is about if one is written, and a colon. -/
inductive AccessMark : List Char → Prop where
  | whole {letter : Char} (h : letter ∈ ['R', 'W', 'X']) : AccessMark [letter, ':']
  | range {letter : Char} {high low : List Char} (h : letter ∈ ['R', 'W', 'X'])
      (hhigh : IsNumber high) (hlow : IsNumber low) :
      AccessMark (letter :: '[' :: (high ++ ':' :: (low ++ [']', ':'])))

/-- `cs` is `rest` behind an access. -/
def TakesAccess (cs rest : List Char) : Prop := ∃ mark, AccessMark mark ∧ cs = mark ++ rest

/-- `cs` is `rest` in front of a broadcast size. -/
def TakesBroadcast (cs rest : List Char) : Prop :=
  ∃ size, IsNumber size ∧ cs = rest ++ '/' :: 'b' :: size

/-- `cs` is `rest` between two brackets. -/
def TakesBrackets (opening closing : Char) (cs rest : List Char) : Prop :=
  cs = opening :: (rest ++ [closing])

/-- `cs` is `rest` behind a shift operator of ARM and a space. -/
def TakesShift (cs rest : List Char) : Prop :=
  ∃ op ∈ ["SOP", "LSL", "LSR", "ASR", "ROR", "RRX"], cs = op.toList ++ ' ' :: rest

section take

variable {cs rest : List Char}

theorem isNumber_iff : IsNumber cs ↔ ∃ n, Text.nat? cs = some n := by
  simp [IsNumber, Text.nat?]

theorem ofLetter?_iff {c : Char} :
    (∃ access, Access.ofLetter? c.toString = some access) ↔ c ∈ ['R', 'W', 'X'] := by
  constructor
  · rintro ⟨access, h⟩
    have hletter {l : Char} (heq : c.toString = l.toString) : c = l := by
      simpa using congrArg String.toList heq
    unfold Access.ofLetter? at h
    split at h
    · next heq => simp [hletter (l := 'R') heq]
    · next heq => simp [hletter (l := 'W') heq]
    · next heq => simp [hletter (l := 'X') heq]
    · contradiction
  · intro h
    simp only [List.mem_cons, List.not_mem_nil, or_false] at h
    rcases h with rfl | rfl | rfl
    · exact ⟨.read, rfl⟩
    · exact ⟨.write, rfl⟩
    · exact ⟨.readWrite, rfl⟩

/-- A number ends at the first character that is no digit. -/
theorem IsNumber.takeWhile_append (h : IsNumber cs) {c : Char} (hc : Text.isDigit c = false)
    (rest : List Char) : (cs ++ c :: rest).takeWhile Text.isDigit = cs := by
  simp [List.takeWhile_append_of_pos h.2, hc]

theorem IsNumber.dropWhile_append (h : IsNumber cs) {c : Char} (hc : Text.isDigit c = false)
    (rest : List Char) : (cs ++ c :: rest).dropWhile Text.isDigit = c :: rest := by
  simp [List.dropWhile_append_of_pos h.2, hc]

/-- An access is a letter, and the bits are those that are written behind it. -/
theorem exists_of_takeAccess? {access : Access} {bits : Option (Nat × Nat)}
    (h : takeAccess? cs = some (access, bits, rest)) :
    ∃ letter ∈ ['R', 'W', 'X'], (bits = none ∧ cs = letter :: ':' :: rest) ∨
      ∃ high low hi lo, bits = some (hi, lo) ∧ Text.nat? high = some hi ∧
        Text.nat? low = some lo ∧
          cs = letter :: '[' :: (high ++ ':' :: (low ++ ']' :: ':' :: rest)) := by
  unfold takeAccess? at h
  split at h
  · contradiction
  · split at h
    · contradiction
    · next c _ _ access' hletter =>
      refine ⟨c, ofLetter?_iff.mp ⟨access', hletter⟩, ?_⟩
      split at h
      · next rest' =>
        cases h
        exact .inl ⟨rfl, rfl⟩
      · next cs =>
        simp only at h
        split at h
        · next cs₁ hcs₁ =>
          split at h
          · next cs₂ hcs₂ =>
            split at h
            · next hi lo hhi hlo =>
              cases h
              have hcs : cs = cs.takeWhile Text.isDigit ++
                  ':' :: (cs₁.takeWhile Text.isDigit ++ ']' :: ':' :: rest) := by
                rw [← hcs₂, List.takeWhile_append_dropWhile, ← hcs₁,
                  List.takeWhile_append_dropWhile]
              exact .inr ⟨_, _, hi, lo, rfl, hhi, hlo, by rw [← hcs]⟩
            · contradiction
          · contradiction
        · contradiction
      · contradiction

theorem takesAccess_of_takeAccess? {access : Access} {bits : Option (Nat × Nat)}
    (h : takeAccess? cs = some (access, bits, rest)) : TakesAccess cs rest := by
  obtain ⟨letter, hletter, ⟨-, rfl⟩ | ⟨high, low, hi, lo, -, hhi, hlo, rfl⟩⟩ :=
    exists_of_takeAccess? h
  · exact ⟨_, .whole hletter, rfl⟩
  · refine ⟨_, .range hletter (isNumber_iff.mpr ⟨hi, hhi⟩) (isNumber_iff.mpr ⟨lo, hlo⟩), ?_⟩
    simp

/-- The bits that are written behind an access are taken with it. -/
theorem takeAccess?_range {letter : Char} {high low : List Char} {hi lo : Nat}
    (hletter : letter ∈ ['R', 'W', 'X']) (hhi : Text.nat? high = some hi)
    (hlo : Text.nat? low = some lo) (rest : List Char) :
    ∃ access, takeAccess? (letter :: '[' :: (high ++ ':' :: (low ++ ']' :: ':' :: rest))) =
      some (access, some (hi, lo), rest) := by
  obtain ⟨access, haccess⟩ := ofLetter?_iff.mpr hletter
  have hhigh : IsNumber high := isNumber_iff.mpr ⟨hi, hhi⟩
  have hlow : IsNumber low := isNumber_iff.mpr ⟨lo, hlo⟩
  have hcolon : Text.isDigit ':' = false := by decide
  have hbracket : Text.isDigit ']' = false := by decide
  refine ⟨access, ?_⟩
  simp only [takeAccess?, haccess]
  simp [hhigh.takeWhile_append hcolon, hhigh.dropWhile_append hcolon,
    hlow.takeWhile_append hbracket, hlow.dropWhile_append hbracket, hhi, hlo]

theorem takeAccess?_of_takesAccess (h : TakesAccess cs rest) :
    ∃ access bits, takeAccess? cs = some (access, bits, rest) := by
  obtain ⟨mark, hmark, rfl⟩ := h
  cases hmark with
  | whole hletter =>
      obtain ⟨access, haccess⟩ := ofLetter?_iff.mpr hletter
      refine ⟨access, none, ?_⟩
      simp only [List.cons_append, List.nil_append, takeAccess?, haccess]
  | range hletter hhigh hlow =>
      obtain ⟨hi, hhi⟩ := isNumber_iff.mp hhigh
      obtain ⟨lo, hlo⟩ := isNumber_iff.mp hlow
      obtain ⟨access, haccess⟩ := takeAccess?_range hletter hhi hlo rest
      refine ⟨access, some (hi, lo), ?_⟩
      simpa using haccess

theorem takeAccess?_iff :
    (takeAccess? cs).map (·.2.2) = some rest ↔ TakesAccess cs rest := by
  constructor
  · intro h
    obtain ⟨⟨access, bits, rest'⟩, htake, rfl⟩ := Option.map_eq_some_iff.mp h
    exact takesAccess_of_takeAccess? htake
  · intro h
    obtain ⟨access, bits, htake⟩ := takeAccess?_of_takesAccess h
    rw [htake, Option.map_some]

theorem takeBroadcast?_iff :
    (takeBroadcast? cs).map Prod.fst = some rest ↔ TakesBroadcast cs rest := by
  unfold takeBroadcast?
  constructor
  · intro h
    split at h
    · next front size hcut =>
      obtain ⟨⟨front', n⟩, hn, rfl⟩ := Option.map_eq_some_iff.mp h
      obtain ⟨n', hsize, hpair⟩ := Option.map_eq_some_iff.mp hn
      obtain ⟨rfl, rfl⟩ := Prod.mk.inj hpair
      exact ⟨size, isNumber_iff.mpr ⟨n', hsize⟩, (Text.cutLast?_eq_some_iff.mp hcut).1⟩
    · contradiction
  · rintro ⟨size, hsize, rfl⟩
    obtain ⟨n, hn⟩ := isNumber_iff.mp hsize
    have hslash : '/' ∉ 'b' :: size := by
      intro hmem
      rcases List.mem_cons.mp hmem with heq | hmem
      · exact absurd heq (by decide)
      · exact absurd (hsize.2 '/' hmem) (by decide)
    have hcut : Text.cutLast? '/' (rest ++ '/' :: 'b' :: size) = some (rest, 'b' :: size) :=
      Text.cutLast?_eq_some_iff.mpr ⟨rfl, hslash⟩
    simp [hcut, hn]

theorem inside?_iff {opening closing : Char} :
    inside? opening closing cs = some rest ↔ TakesBrackets opening closing cs rest := by
  unfold inside? TakesBrackets
  cases cs with
  | nil => simp
  | cons c cs =>
      simp only [Option.ite_none_right_eq_some, Option.some.injEq, List.cons.injEq]
      constructor
      · rintro ⟨⟨rfl, hlast⟩, rfl⟩
        obtain ⟨front, rfl⟩ := List.getLast?_eq_some_iff.mp hlast
        simp
      · rintro ⟨rfl, rfl⟩
        simp

/-- All shift operators have as many letters, so that what is behind one is there but once. -/
theorem TakesShift.unique {other : List Char} (h : TakesShift cs rest) (h' : TakesShift cs other) :
    rest = other := by
  have hlength : ∀ op ∈ ["SOP", "LSL", "LSR", "ASR", "ROR", "RRX"], op.toList.length = 3 := by
    decide
  obtain ⟨op, hop, rfl⟩ := h
  obtain ⟨op', hop', heq⟩ := h'
  have hrest := (List.append_inj heq (by rw [hlength op hop, hlength op' hop'])).2
  exact (List.cons.inj hrest).2

/-- A token is peeled from the outside in. -/
theorem core_peel {token : String} {unmarked unsized unangled unbraced : List Char}
    (access : Removes TakesAccess (Text.trim token.toList) unmarked)
    (broadcast : Removes TakesBroadcast unmarked unsized)
    (implicit : Removes (TakesBrackets '<' '>') unsized unangled)
    (optional : Removes (TakesBrackets '{' '}') unangled unbraced) :
    (peel token).core = unbraced := by
  rw [removes_iff fun _ => takeAccess?_iff] at access
  rw [removes_iff fun _ => takeBroadcast?_iff] at broadcast
  rw [removes_iff fun _ => inside?_iff] at implicit optional
  unfold peel
  cases haccess : takeAccess? (Text.trim token.toList)
  all_goals cases hbroadcast : takeBroadcast? unmarked
  all_goals cases himplicit : inside? '<' '>' unsized
  all_goals cases hoptional : inside? '{' '}' unangled
  all_goals simp_all

end take

end Operand

end InstrTable
