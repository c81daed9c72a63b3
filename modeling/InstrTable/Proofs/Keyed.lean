import InstrTable.Keyed
import Mathlib.Algebra.Ring.Nat
import Mathlib.Data.List.Induction

/-!
What a table holds under its names: every entry is found under its name, and no other
value is.
-/

namespace InstrTable

namespace Keyed

variable {α : Type}

theorem nodup_keys (t : Keyed α) : t.keys.Nodup := t.nodup

theorem contains_iff_mem_keys (t : Keyed α) (key : String) :
    t.contains key = true ↔ key ∈ t.keys := by
  simp only [contains, get?, keys, List.lookup_isSome_iff, List.mem_map, beq_iff_eq]
  exact exists_congr fun e => and_congr_right fun _ => eq_comm

theorem lookup_eq_some_iff {es : List (String × α)} (h : (es.map Prod.fst).Nodup) {key : String}
    {value : α} : es.lookup key = some value ↔ (key, value) ∈ es := by
  rw [List.lookup_eq_some_iff]
  constructor
  · rintro ⟨front, back, rfl, -⟩
    simp
  · intro hmem
    obtain ⟨front, back, rfl⟩ := List.append_of_mem hmem
    refine ⟨front, back, rfl, fun e he => ?_⟩
    -- no earlier entry has the same name
    rw [List.map_append, List.nodup_append] at h
    have hne : e.1 ≠ key := h.2.2 e.1 (List.mem_map_of_mem he) key (by simp)
    simpa using Ne.symm hne

theorem get?_eq_some_iff {t : Keyed α} {key : String} {value : α} :
    t.get? key = some value ↔ (key, value) ∈ t.entries :=
  lookup_eq_some_iff t.nodup

theorem mem_values_of_get? {t : Keyed α} {key : String} {value : α}
    (h : t.get? key = some value) : value ∈ t.values :=
  List.mem_map_of_mem (get?_eq_some_iff.mp h)

/-- A name that is new gets its value, and every other name keeps what it had. -/
theorem get?_insertNew_of_ne (t : Keyed α) {key key' : String} (h : key' ≠ key) (value : α) :
    (t.insertNew key value).get? key' = t.get? key' := by
  unfold insertNew
  split
  · rfl
  · rw [get?_insert, if_neg h]

theorem get?_insertNew (t : Keyed α) (key key' : String) (value : α) :
    (t.insertNew key value).get? key' =
      (t.get? key').or (if key' = key then some value else none) := by
  by_cases h : key' = key
  · subst h
    unfold insertNew contains
    cases hvalue : t.get? key' with
    | none => simp
    | some value' => simp [hvalue]
  · rw [get?_insertNew_of_ne t h, if_neg h, Option.or_none]

/-- Of entries with different names each is found, and every other name keeps what it had. -/
theorem get?_foldl_insert {es : List (String × α)} (h : (es.map Prod.fst).Nodup) (t : Keyed α)
    (key : String) :
    (es.foldl (fun t e => t.insert e.1 e.2) t).get? key = (es.lookup key).or (t.get? key) := by
  induction es generalizing t with
  | nil => rfl
  | cons e es ih =>
      rw [List.map_cons, List.nodup_cons] at h
      obtain ⟨hnew, hrest⟩ := h
      rw [List.foldl_cons, ih hrest, get?_insert, List.lookup_cons]
      by_cases hkey : key = e.1
      · subst hkey
        have hnone : es.lookup e.1 = none := by
          rw [List.lookup_eq_none_iff]
          intro e' he'
          rw [bne_iff_ne]
          intro heq
          exact hnew (heq ▸ List.mem_map_of_mem he')
        simp [hnone]
      · have hmiss : (key == e.1) = false := by simpa using hkey
        simp [hkey, hmiss]

theorem ofList_concat (es : List (String × α)) (e : String × α) :
    ofList (es ++ [e]) = (ofList es).insert e.1 e.2 := by
  simp [ofList]

/-- Of the values that a name is given the last one counts. -/
theorem get?_ofList (es : List (String × α)) (key : String) :
    (ofList es).get? key = ((es.filter fun e => e.1 = key).getLast?).map Prod.snd := by
  induction es using List.reverseRecOn with
  | nil => rfl
  | append_singleton es e ih =>
      rw [ofList_concat, get?_insert, ih, List.filter_append]
      by_cases h : key = e.1
      · simp [h]
      · simp [h, Ne.symm h]

/-- The names stand in the order in which they first came. -/
theorem keys_ofList (es : List (String × α)) :
    (ofList es).keys = (es.map Prod.fst).eraseDups := by
  induction es using List.reverseRecOn with
  | nil => rfl
  | append_singleton es e ih =>
      rw [ofList_concat, keys_insert, ih, List.map_append, List.eraseDups_append]
      by_cases h : e.1 ∈ es.map Prod.fst
      · simp [List.mem_eraseDups, h, List.removeAll]
      · simp [List.mem_eraseDups, h, List.removeAll, List.eraseDups_cons]

theorem sum_put (f : α → Nat) (key : String) (value : α) (es : List (String × α)) :
    ((put key value es).map (f ·.2)).sum + ((es.lookup key).map f).getD 0 =
      (es.map (f ·.2)).sum + f value := by
  induction es with
  | nil => simp [put]
  | cons e es ih =>
      obtain ⟨k, v⟩ := e
      by_cases h : k = key
      · subst h
        simp only [put, if_true, List.map_cons, List.sum_cons, List.lookup_cons_self,
          Option.map_some, Option.getD_some]
        omega
      · have hmiss : (key == k) = false := by simpa using Ne.symm h
        simp only [put, h, if_false, List.map_cons, List.sum_cons, List.lookup_cons, hmiss]
        omega

/-- A new value is added to a sum over all values, and the one that it replaces is taken
from it. -/
theorem sum_values_insert (t : Keyed α) (f : α → Nat) (key : String) (value : α) :
    ((t.insert key value).values.map f).sum + ((t.get? key).map f).getD 0 =
      (t.values.map f).sum + f value := by
  have hsum := sum_put f key value t.entries
  simpa [values, get?, insert, List.map_map, Function.comp_def] using hsum

end Keyed

end InstrTable
