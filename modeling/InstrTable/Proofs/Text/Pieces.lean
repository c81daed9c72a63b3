import InstrTable.Text.Piece

/-!
Where a text is cut: at the first or at the last occurrence of a character, or at every
one of them. Each cut is told apart by what may not stand in one of its parts.
-/

namespace InstrTable

namespace Text

variable {sep : Char} {cs front back : List Char}

theorem cutFirst?_eq_none_iff : cutFirst? sep cs = none ↔ sep ∉ cs := by
  induction cs with
  | nil => simp [cutFirst?]
  | cons c cs ih =>
      rw [cutFirst?, List.mem_cons, not_or, ← ih]
      by_cases h : c = sep
      · simp [h]
      · simp [h, Ne.symm h]

theorem cutFirst?_eq_some_iff :
    cutFirst? sep cs = some (front, back) ↔ cs = front ++ sep :: back ∧ sep ∉ front := by
  induction cs generalizing front with
  | nil => simp [cutFirst?]
  | cons c cs ih =>
      rw [cutFirst?]
      by_cases h : c = sep
      · cases front with
        | nil => simp [h, eq_comm]
        | cons f front =>
            simp only [h, if_true, Option.some.injEq, Prod.mk.injEq, reduceCtorEq, false_and,
              List.cons_append, List.cons.injEq, List.mem_cons, not_or, false_iff, not_and]
            rintro ⟨rfl, -⟩ hs
            exact absurd rfl hs
      · rw [if_neg h, Option.map_eq_some_iff]
        cases front with
        | nil => simp [h]
        | cons f front =>
            constructor
            · rintro ⟨⟨a, b⟩, hcut, hparts⟩
              obtain ⟨⟨rfl, rfl⟩, rfl⟩ : (c = f ∧ a = front) ∧ b = back := by simpa using hparts
              obtain ⟨rfl, hfront⟩ := ih.mp hcut
              exact ⟨rfl, by simpa [hfront] using Ne.symm h⟩
            · rintro ⟨hcs, hfront⟩
              obtain ⟨rfl, rfl⟩ : c = f ∧ cs = front ++ sep :: back := by simpa using hcs
              exact ⟨(front, back), ih.mpr ⟨rfl, List.not_mem_of_not_mem_cons hfront⟩, rfl⟩

theorem cutLast?_eq_none_iff : cutLast? sep cs = none ↔ sep ∉ cs := by
  rw [cutLast?, Option.map_eq_none_iff, cutFirst?_eq_none_iff, List.mem_reverse]

theorem cutLast?_eq_some_iff :
    cutLast? sep cs = some (front, back) ↔ cs = front ++ sep :: back ∧ sep ∉ back := by
  rw [cutLast?, Option.map_eq_some_iff]
  constructor
  · rintro ⟨⟨a, b⟩, hcut, hparts⟩
    obtain ⟨rfl, rfl⟩ : b.reverse = front ∧ a.reverse = back := by simpa using hparts
    obtain ⟨hcs, ha⟩ := cutFirst?_eq_some_iff.mp hcut
    refine ⟨?_, by simpa using ha⟩
    rw [← List.reverse_reverse cs, hcs]
    simp
  · rintro ⟨rfl, hback⟩
    refine ⟨(back.reverse, front.reverse), cutFirst?_eq_some_iff.mpr ⟨by simp, ?_⟩, by simp⟩
    simpa using hback

theorem isSome_after?_iff : (after? front cs).isSome = true ↔ front <+: cs := by
  rw [Option.isSome_iff_exists]
  exact exists_congr fun rest => after?_eq_some_iff.trans eq_comm

theorem pieces_of_not_mem (h : sep ∉ cs) : pieces sep cs = [cs] := by
  induction cs with
  | nil => rfl
  | cons c cs ih =>
      have hc : c ≠ sep := Ne.symm (List.ne_of_not_mem_cons h)
      rw [pieces, if_neg hc, ih (List.not_mem_of_not_mem_cons h), extendHead_cons,
        List.singleton_append]

/-- Wherever a separator stands, a text may be cut there first. -/
theorem pieces_append (sep : Char) (front back : List Char) :
    pieces sep (front ++ sep :: back) = pieces sep front ++ pieces sep back := by
  induction front with
  | nil => simp [pieces]
  | cons c front ih =>
      rw [List.cons_append, pieces, pieces, ih]
      split
      · rfl
      · obtain ⟨p, ps, hpieces⟩ := List.exists_cons_of_ne_nil (pieces_ne_nil sep front)
        rw [hpieces, List.cons_append, extendHead_cons, extendHead_cons, List.cons_append]
        rfl

theorem pieces_append_cons (h : sep ∉ front) (back : List Char) :
    pieces sep (front ++ sep :: back) = front :: pieces sep back := by
  rw [pieces_append, pieces_of_not_mem h, List.singleton_append]

theorem joined_cons {p : List Char} {ps : List (List Char)} (hne : ps ≠ []) :
    joined sep (p :: ps) = p ++ sep :: joined sep ps := by
  obtain ⟨q, qs, rfl⟩ := List.exists_cons_of_ne_nil hne
  rfl

/-- Pieces that hold no separator are found again when they are joined and cut. -/
theorem pieces_joined {ps : List (List Char)} (hne : ps ≠ []) (h : ∀ p ∈ ps, sep ∉ p) :
    pieces sep (joined sep ps) = ps := by
  induction ps with
  | nil => exact absurd rfl hne
  | cons p ps ih =>
      have hp : sep ∉ p := h p List.mem_cons_self
      cases ps with
      | nil => exact pieces_of_not_mem hp
      | cons q qs =>
          have hrest := ih (by simp) fun r hr => h r (List.mem_cons_of_mem _ hr)
          rw [joined, pieces_append_cons hp, hrest]

theorem not_mem_of_mem_pieces {p : List Char} (hp : p ∈ pieces sep cs) : sep ∉ p := by
  induction cs generalizing p with
  | nil => simp_all [pieces]
  | cons c cs ih =>
      rw [pieces] at hp
      split at hp
      · rcases List.mem_cons.mp hp with rfl | hp
        · exact List.not_mem_nil
        · exact ih hp
      · next hc =>
        obtain ⟨q, qs, hpieces⟩ := List.exists_cons_of_ne_nil (pieces_ne_nil sep cs)
        rw [hpieces] at hp ih
        rcases List.mem_cons.mp hp with rfl | hp
        · have hq : sep ∉ q := ih List.mem_cons_self
          simpa [hq] using Ne.symm hc
        · exact ih (List.mem_cons_of_mem _ hp)

theorem mem_joined {p : List Char} {ps : List (List Char)} (hp : p ∈ ps) {c : Char} (hc : c ∈ p) :
    c ∈ joined sep ps := by
  induction ps with
  | nil => contradiction
  | cons q qs ih =>
      cases qs with
      | nil =>
          obtain rfl := List.mem_singleton.mp hp
          exact hc
      | cons r rs =>
          rw [joined, List.mem_append]
          rcases List.mem_cons.mp hp with rfl | hp
          · exact .inl hc
          · exact .inr (List.mem_cons_of_mem _ (ih hp))

theorem eq_or_mem_of_mem_joined {c : Char} {ps : List (List Char)} (h : c ∈ joined sep ps) :
    c = sep ∨ ∃ p ∈ ps, c ∈ p := by
  induction ps with
  | nil => contradiction
  | cons p ps ih =>
      cases ps with
      | nil => exact .inr ⟨p, List.mem_cons_self, h⟩
      | cons q qs =>
          rw [joined, List.mem_append, List.mem_cons] at h
          obtain h | h | h := h
          · exact .inr ⟨p, List.mem_cons_self, h⟩
          · exact .inl h
          · obtain h | ⟨p', hp', hc⟩ := ih h
            · exact .inl h
            · exact .inr ⟨p', List.mem_cons_of_mem _ hp', hc⟩

/-- A piece is made of characters of the text. -/
theorem mem_of_mem_pieces {p : List Char} (hp : p ∈ pieces sep cs) {c : Char} (hc : c ∈ p) :
    c ∈ cs := by
  have hjoined : c ∈ joined sep (pieces sep cs) := mem_joined hp hc
  rwa [joined_pieces] at hjoined

theorem joined_eq_intercalate (sep : Char) (ps : List (List Char)) :
    joined sep ps = [sep].intercalate ps := by
  induction ps with
  | nil => rfl
  | cons p ps ih =>
      cases ps with
      | nil => simp [joined]
      | cons q qs =>
          rw [joined, ih, List.intercalate_cons_cons, List.append_assoc, List.singleton_append]

end Text

theorem toList_intercalate_toString (sep : Char) (ps : List String) :
    (sep.toString.intercalate ps).toList = Text.joined sep (ps.map String.toList) := by
  rw [String.toList_intercalate, Text.joined_eq_intercalate]
  simp

theorem toList_intercalate_bar (alts : List String) :
    ("|".intercalate alts).toList = Text.joined '|' (alts.map String.toList) :=
  toList_intercalate_toString '|' alts

end InstrTable
