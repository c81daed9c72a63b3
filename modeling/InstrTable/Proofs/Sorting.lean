import Mathlib.Data.String.Basic

/-!
Stable sorting by a text. Sorting keeps, for every text, the items that have it in
their order, so a sorted list is its items text by text.
-/

namespace InstrTable

section Keys

variable {α : Type} (key : α → String)

theorem le_key_trans (a b c : α) (hab : decide (key a ≤ key b) = true)
    (hbc : decide (key b ≤ key c) = true) : decide (key a ≤ key c) = true := by
  rw [decide_eq_true_eq] at hab hbc ⊢
  exact le_trans hab hbc

theorem le_key_total (a b : α) : (decide (key a ≤ key b) || decide (key b ≤ key a)) = true := by
  simpa using le_total (key a) (key b)

theorem pairwise_mergeSort_key (items : List α) :
    (items.mergeSort fun a b => decide (key a ≤ key b)).Pairwise fun a b => key a ≤ key b := by
  simpa using List.pairwise_mergeSort (le_key_trans key) (le_key_total key) items

/-- Sorting keeps the order of the items with one text. -/
theorem filter_mergeSort_key (items : List α) (text : String) :
    (items.mergeSort fun a b => decide (key a ≤ key b)).filter (key · = text) =
      items.filter (key · = text) := by
  have hsame : (items.filter (key · = text)).Pairwise fun a b => decide (key a ≤ key b) = true := by
    rw [List.pairwise_iff_forall_sublist]
    intro a b hab
    have ha : a ∈ items.filter (key · = text) := hab.subset (by simp)
    have hb : b ∈ items.filter (key · = text) := hab.subset (by simp)
    simp only [List.mem_filter, decide_eq_true_eq] at ha hb
    simp [ha.2, hb.2]
  have hsub := List.sublist_mergeSort (le_key_trans key) (le_key_total key) hsame
    List.filter_sublist
  have hperm := (List.mergeSort_perm items fun a b => decide (key a ≤ key b)).filter (key · = text)
  -- the items are in the sorted list in their order, and there are no others
  refine ((List.Sublist.eq_of_length_le ?_ hperm.length_eq.le)).symm
  simpa using hsub.filter (key · = text)

theorem filter_append_filter_ne {items : List α} (hsorted : items.Pairwise fun a b => key a ≤ key b)
    {text : String} (hleast : ∀ a ∈ items, text ≤ key a) :
    items.filter (key · = text) ++ items.filter (key · ≠ text) = items := by
  induction items with
  | nil => rfl
  | cons a items ih =>
      rw [List.pairwise_cons] at hsorted
      by_cases ha : key a = text
      · simpa [ha] using ih hsorted.2 fun b hb => hleast b (List.mem_cons_of_mem _ hb)
      · have hlt : text < key a := lt_of_le_of_ne (hleast a List.mem_cons_self) (Ne.symm ha)
        have hlater : ∀ b ∈ items, key b ≠ text := fun b hb =>
          (hlt.trans_le (hsorted.1 b hb)).ne'
        have hnone : items.filter (key · = text) = [] := by simpa using hlater
        have hall : items.filter (key · ≠ text) = items := by simpa using hlater
        rw [List.filter_cons_of_neg (by simpa using ha), hnone,
          List.filter_cons_of_pos (by simpa using ha), hall, List.nil_append]

/-- A sorted list is its items text by text. -/
theorem flatMap_filter_key {texts : List String} (htexts : texts.Pairwise (· < ·))
    {items : List α} (hsorted : items.Pairwise fun a b => key a ≤ key b)
    (hkeys : ∀ a ∈ items, key a ∈ texts) :
    (texts.flatMap fun text => items.filter (key · = text)) = items := by
  induction texts generalizing items with
  | nil => simpa [List.eq_nil_iff_forall_not_mem] using hkeys
  | cons text texts ih =>
      rw [List.pairwise_cons] at htexts
      have hleast : ∀ a ∈ items, text ≤ key a := by
        intro a ha
        rcases List.mem_cons.mp (hkeys a ha) with h | h
        · exact h.ge
        · exact (htexts.1 _ h).le
      have hrest : (texts.flatMap fun t => items.filter (key · = t)) =
          texts.flatMap fun t => (items.filter (key · ≠ text)).filter (key · = t) := by
        refine List.flatMap_congr fun t ht => ?_
        rw [List.filter_filter]
        refine List.filter_congr fun a _ => ?_
        have hne : t ≠ text := (htexts.1 t ht).ne'
        by_cases hat : key a = t <;> simp [hat, hne]
      rw [List.flatMap_cons, hrest, ih htexts.2 (hsorted.filter _) ?_,
        filter_append_filter_ne key hsorted hleast]
      intro a ha
      simp only [List.mem_filter, decide_eq_true_eq] at ha
      exact (List.mem_cons.mp (hkeys a ha.1)).resolve_left ha.2

end Keys

/-- Texts without repetition are sorted strictly. -/
theorem pairwise_lt_mergeSort {texts : List String} (h : texts.Nodup) :
    (texts.mergeSort fun a b => decide (a ≤ b)).Pairwise (· < ·) := by
  have hle := pairwise_mergeSort_key id texts
  have hnodup : (texts.mergeSort fun a b => decide (a ≤ b)).Nodup :=
    (List.mergeSort_perm texts _).nodup_iff.mpr h
  exact (hle.and hnodup).imp fun hab => lt_of_le_of_ne hab.1 hab.2

/-- Texts that are sorted strictly are told by which they are. -/
theorem eq_of_pairwise_lt {texts texts' : List String} (h : texts.Pairwise (· < ·))
    (h' : texts'.Pairwise (· < ·)) (hmem : ∀ text, text ∈ texts ↔ text ∈ texts') :
    texts = texts' := by
  have hperm : texts.Perm texts' :=
    (List.perm_ext_iff_of_nodup (h.imp ne_of_lt) (h'.imp ne_of_lt)).mpr hmem
  refine hperm.eq_of_pairwise (fun a b _ _ hab hba => ?_) h h'
  exact absurd hab (lt_asymm hba)

theorem nodup_eraseDups (texts : List String) : texts.eraseDups.Nodup := by
  -- the recursion is on a filtered tail, so the induction is on the length
  induction h : texts.length using Nat.strongRecOn generalizing texts with
  | ind n ih =>
      cases texts with
      | nil => simp
      | cons a texts =>
          have hlt : (texts.filter fun b => !b == a).length < n := by
            have := List.length_filter_le (fun b => !b == a) texts
            simp only [List.length_cons] at h
            omega
          rw [List.eraseDups_cons, List.nodup_cons]
          exact ⟨by simp [List.mem_eraseDups], ih _ hlt _ rfl⟩

end InstrTable
