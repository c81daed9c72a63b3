import InstrTable.Proofs.Database.Reports
import Mathlib.Data.List.Forall2
import Mathlib.Data.List.Perm.Basic

/-!
The pairs of records that are told to differ. Every pair of a group is looked at once, in the
order of its places, and of what is found nothing depends on which of its two records came
first.
-/

namespace InstrTable

namespace Database

section pairs

variable {α β : Type} {a b : α} {items : List α}

/-- The pairs of a list are those of an item and a later one. -/
theorem mem_pairs : (a, b) ∈ pairs items ↔
    ∃ i j : Nat, i < j ∧ items[i]? = some a ∧ items[j]? = some b := by
  induction items with
  | nil => simp [pairs]
  | cons c items ih =>
      rw [pairs, List.mem_append, ih, List.mem_map]
      constructor
      · rintro (⟨d, hd, heq⟩ | ⟨i, j, hij, ha, hb⟩)
        · obtain ⟨rfl, rfl⟩ := Prod.mk.inj heq
          obtain ⟨j, hj⟩ := List.mem_iff_getElem?.mp hd
          exact ⟨0, j + 1, by omega, rfl, hj⟩
        · exact ⟨i + 1, j + 1, by omega, ha, hb⟩
      · rintro ⟨i, j, hij, ha, hb⟩
        cases j with
        | zero => omega
        | succ j =>
            cases i with
            | zero =>
                obtain rfl : c = a := by simpa using ha
                exact .inl ⟨b, List.mem_of_getElem? hb, rfl⟩
            | succ i => exact .inr ⟨i, j, by omega, ha, hb⟩

/-- The pairs of a list are in the order of their first items, and then of their second ones. -/
theorem pairwise_pairs {R : α → α → Prop} (h : items.Pairwise R) :
    (pairs items).Pairwise fun p q => R p.1 q.1 ∨ p.1 = q.1 ∧ R p.2 q.2 := by
  induction items with
  | nil => exact .nil
  | cons c items ih =>
      obtain ⟨hfirst, hrest⟩ := List.pairwise_cons.mp h
      rw [pairs, List.pairwise_append, List.pairwise_map]
      refine ⟨hrest.imp fun hab => .inr ⟨rfl, hab⟩, ih hrest, ?_⟩
      rintro p hp ⟨a, b⟩ hq
      obtain ⟨d, -, rfl⟩ := List.mem_map.mp hp
      obtain ⟨i, j, -, ha, -⟩ := mem_pairs.mp hq
      exact .inl (hfirst a (List.mem_of_getElem? ha))

theorem pairs_map (f : α → β) (items : List α) :
    pairs (items.map f) = (pairs items).map fun p => (f p.1, f p.2) := by
  induction items with
  | nil => rfl
  | cons c items ih => simp [pairs, ih, Function.comp_def]

/-- What is made of the pairs of a list without regard to which item is first does not depend on
the order of the list. -/
theorem perm_filterMap_pairs {f : α × α → Option β} (hf : ∀ a b, f (a, b) = f (b, a))
    {others : List α} (h : items.Perm others) :
    ((pairs items).filterMap f).Perm ((pairs others).filterMap f) := by
  induction h with
  | nil => rfl
  | cons c h ih =>
      simp only [pairs, List.filterMap_append, List.filterMap_map]
      exact (h.filterMap _).append ih
  | swap c d items =>
      simp only [pairs, List.map_cons, List.cons_append, List.filterMap_cons, List.filterMap_append,
        hf d c]
      cases f (c, d) with
      | none => exact List.perm_append_comm_assoc _ _ _
      | some found => exact (List.perm_append_comm_assoc _ _ _).cons found
  | trans _ _ ih₁ ih₂ => exact ih₁.trans ih₂

end pairs

/-! ### One pair -/

/-- A record with a VEX prefix and one with an EVEX prefix that have the same operands and the
same opcode byte, and differ in width or vector length. -/
structure Differ (vex evex : Record) : Prop where
  isVex : vex.prefixClass? = some .vex
  isEvex : evex.prefixClass? = some .evex
  signature : vex.signature = evex.signature
  opcode : ∃ v e, vex.opcode.bytes? = some v ∧ evex.opcode.bytes? = some e ∧
    v.opcode = e.opcode ∧ (v.width ≠ e.width ∨ v.vectorLength ≠ e.vectorLength)

theorem oneOf_eq_some_iff {p : PrefixClass} {a b r : Record} :
    oneOf p a b = some r ↔ r.prefixClass? = some p ∧ (r = a ∨ a.prefixClass? ≠ some p ∧ r = b) := by
  unfold oneOf
  split_ifs <;> grind

theorem discrepancy?_eq_some_iff {a b vex evex : Record} :
    discrepancy? a b = some (vex, evex) ↔
      (vex = a ∧ evex = b ∨ vex = b ∧ evex = a) ∧ Differ vex evex := by
  constructor
  · intro h
    unfold discrepancy? at h
    split at h
    · next hsignature =>
      split at h
      · next vex' evex' hvex hevex =>
        split at h
        · next v e hv he =>
          obtain ⟨hdiffer, hpair⟩ := Option.ite_none_right_eq_some.mp h
          obtain ⟨rfl, rfl⟩ : vex' = vex ∧ evex' = evex := by simpa using hpair
          obtain ⟨hisVex, hvex⟩ := oneOf_eq_some_iff.mp hvex
          obtain ⟨hisEvex, hevex⟩ := oneOf_eq_some_iff.mp hevex
          -- no record has both prefixes
          have hne : vex' ≠ evex' := by
            rintro rfl
            simp [hisVex] at hisEvex
          rcases hvex with rfl | ⟨-, rfl⟩ <;> rcases hevex with rfl | ⟨-, rfl⟩
          · contradiction
          · exact ⟨.inl ⟨rfl, rfl⟩, hisVex, hisEvex, hsignature, v, e, hv, he, hdiffer⟩
          · exact ⟨.inr ⟨rfl, rfl⟩, hisVex, hisEvex, hsignature.symm, v, e, hv, he, hdiffer⟩
          · contradiction
        · contradiction
      · contradiction
    · contradiction
  · rintro ⟨hpair, hisVex, hisEvex, hsignature, v, e, hv, he, hdiffer⟩
    have hvex : oneOf .vex a b = some vex := by
      refine oneOf_eq_some_iff.mpr ⟨hisVex, ?_⟩
      rcases hpair with ⟨rfl, rfl⟩ | ⟨rfl, rfl⟩ <;> simp [hisEvex]
    have hevex : oneOf .evex a b = some evex := by
      refine oneOf_eq_some_iff.mpr ⟨hisEvex, ?_⟩
      rcases hpair with ⟨rfl, rfl⟩ | ⟨rfl, rfl⟩ <;> simp [hisVex]
    have hsame : a.signature = b.signature := by
      rcases hpair with ⟨rfl, rfl⟩ | ⟨rfl, rfl⟩
      · exact hsignature
      · exact hsignature.symm
    simp only [discrepancy?, if_pos hsame, hvex, hevex, hv, he, if_pos hdiffer]

/-- It does not matter which of two records comes first. -/
theorem discrepancy?_comm (a b : Record) : discrepancy? a b = discrepancy? b a := by
  refine Option.ext fun ⟨vex, evex⟩ => ?_
  rw [discrepancy?_eq_some_iff, discrepancy?_eq_some_iff, or_comm]

/-! ### All pairs -/

/-- Two places of the group of a name. -/
structure PairPlace where
  name : String
  lower : Nat
  higher : Nat

/-- The order by name, then by the lower and then by the higher place. -/
def PairPlace.Precedes (p q : PairPlace) : Prop :=
  p.name < q.name ∨ p.name = q.name ∧
    (p.lower < q.lower ∨ p.lower = q.lower ∧ p.higher < q.higher)

/-- The records at two places of a group differ. Whether the VEX record is at the lower or at the
higher place is left open. -/
structure DifferAt (db : Database) (place : PairPlace) (found : String × Record × Record) :
    Prop where
  name : found.1 = place.name
  lower_lt : place.lower < place.higher
  places : (db.group place.name)[place.lower]? = some found.2.1 ∧
      (db.group place.name)[place.higher]? = some found.2.2 ∨
    (db.group place.name)[place.lower]? = some found.2.2 ∧
      (db.group place.name)[place.higher]? = some found.2.1
  differ : Differ found.2.1 found.2.2

theorem differAt_iff {db : Database} {place : PairPlace} {found : String × Record × Record} :
    db.DifferAt place found ↔ found.1 = place.name ∧ place.lower < place.higher ∧
      ∃ a b, (db.group place.name)[place.lower]? = some a ∧
        (db.group place.name)[place.higher]? = some b ∧ discrepancy? a b = some found.2 := by
  obtain ⟨name, vex, evex⟩ := found
  constructor
  · rintro ⟨hname, hlt, ⟨hlower, hhigher⟩ | ⟨hlower, hhigher⟩, hdiffer⟩
    · exact ⟨hname, hlt, _, _, hlower, hhigher,
        discrepancy?_eq_some_iff.mpr ⟨.inl ⟨rfl, rfl⟩, hdiffer⟩⟩
    · exact ⟨hname, hlt, _, _, hlower, hhigher,
        discrepancy?_eq_some_iff.mpr ⟨.inr ⟨rfl, rfl⟩, hdiffer⟩⟩
  · rintro ⟨hname, hlt, a, b, ha, hb, hfound⟩
    obtain ⟨hpair, hdiffer⟩ := discrepancy?_eq_some_iff.mp hfound
    refine ⟨hname, hlt, ?_, hdiffer⟩
    rcases hpair with ⟨rfl, rfl⟩ | ⟨rfl, rfl⟩
    · exact .inl ⟨ha, hb⟩
    · exact .inr ⟨ha, hb⟩

/-- The places of the pairs of a group that differ, in the order in which they are looked at. -/
def placesIn (db : Database) (name : String) : List PairPlace :=
  ((pairs (db.group name).zipIdx).filter fun p => (discrepancy? p.1.1 p.2.1).isSome).map fun p =>
    ⟨name, p.1.2, p.2.2⟩

variable {db : Database}

theorem mem_pairs_zipIdx {α : Type} {items : List α} {a b : α} {i j : Nat} :
    ((a, i), (b, j)) ∈ pairs items.zipIdx ↔
      i < j ∧ items[i]? = some a ∧ items[j]? = some b := by
  have hplace (k n : Nat) (c : α) :
      items.zipIdx[k]? = some (c, n) ↔ k = n ∧ items[k]? = some c := by
    rw [List.getElem?_zipIdx, Option.map_eq_some_iff]
    simp only [Prod.mk.injEq, Nat.zero_add]
    constructor
    · rintro ⟨c', hc, rfl, rfl⟩
      exact ⟨rfl, hc⟩
    · rintro ⟨rfl, hc⟩
      exact ⟨c, hc, rfl, rfl⟩
  simp only [mem_pairs, hplace]
  constructor
  · rintro ⟨i', j', hij, ⟨rfl, ha⟩, rfl, hb⟩
    exact ⟨hij, ha, hb⟩
  · rintro ⟨hij, ha, hb⟩
    exact ⟨i, j, hij, ⟨rfl, ha⟩, rfl, hb⟩

theorem forall₂_filter_filterMap {α β γ : Type} {R : β → γ → Prop} (place : α → β)
    (f : α → Option γ) {items : List α} (h : ∀ x ∈ items, ∀ y, f x = some y → R (place x) y) :
    List.Forall₂ R ((items.filter fun x => (f x).isSome).map place) (items.filterMap f) := by
  induction items with
  | nil => exact .nil
  | cons x items ih =>
      have hrest := ih fun x' hx' => h x' (List.mem_cons_of_mem x hx')
      cases hx : f x with
      | none => rwa [List.filter_cons_of_neg (by simp [hx]), List.filterMap_cons_none hx]
      | some y =>
          rw [List.filter_cons_of_pos (by simp [hx]), List.filterMap_cons_some hx]
          exact .cons (h x List.mem_cons_self y hx) hrest

/-- Each pair that is found in a group is found at its places. -/
theorem forall₂_placesIn (db : Database) (name : String) :
    List.Forall₂ db.DifferAt (db.placesIn name)
      ((pairs (db.group name)).filterMap fun p =>
        (discrepancy? p.1 p.2).map fun found => (name, found)) := by
  have hpairs : pairs (db.group name) =
      (pairs (db.group name).zipIdx).map fun p => (p.1.1, p.2.1) := by
    rw [← pairs_map, List.zipIdx_map_fst]
  have hplaces : List.Forall₂ db.DifferAt (db.placesIn name)
      ((pairs (db.group name).zipIdx).filterMap fun p =>
        (discrepancy? p.1.1 p.2.1).map fun found => (name, found)) := by
    have hsome : (fun p : (Record × Nat) × Record × Nat => (discrepancy? p.1.1 p.2.1).isSome) =
        fun p => ((discrepancy? p.1.1 p.2.1).map fun found => (name, found)).isSome := by
      funext p
      rw [Option.isSome_map]
    rw [placesIn, hsome]
    refine forall₂_filter_filterMap _ _ ?_
    rintro ⟨⟨a, i⟩, b, j⟩ hp y hy
    obtain ⟨found, hfound, rfl⟩ := Option.map_eq_some_iff.mp hy
    obtain ⟨hij, ha, hb⟩ := mem_pairs_zipIdx.mp hp
    exact differAt_iff.mpr ⟨rfl, hij, a, b, ha, hb, hfound⟩
  rw [hpairs, List.filterMap_map]
  exact hplaces

theorem mem_placesIn {place : PairPlace} {found : String × Record × Record}
    (h : db.DifferAt place found) : place ∈ db.placesIn place.name := by
  obtain ⟨-, hij, a, b, ha, hb, hfound⟩ := differAt_iff.mp h
  refine List.mem_map.mpr ⟨((a, place.lower), (b, place.higher)), List.mem_filter.mpr ⟨?_, ?_⟩, rfl⟩
  · exact mem_pairs_zipIdx.mpr ⟨hij, ha, hb⟩
  · rw [hfound]
    rfl

theorem name_of_mem_placesIn {name : String} {place : PairPlace} (h : place ∈ db.placesIn name) :
    place.name = name := by
  obtain ⟨p, -, rfl⟩ := List.mem_map.mp h
  rfl

/-- Only a name that has a group has pairs. -/
theorem DifferAt.mem_names {records : List Record} (hholds : Holds db records) {place : PairPlace}
    {found : String × Record × Record} (h : db.DifferAt place found) : place.name ∈ db.names := by
  obtain ⟨-, -, r, -, hr, -⟩ := differAt_iff.mp h
  have hfilter := List.mem_of_getElem? hr
  rw [hholds.group_eq, List.mem_filter, decide_eq_true_eq] at hfilter
  rw [hholds.mem_names, ← hfilter.2]
  exact List.mem_map_of_mem hfilter.1

theorem pairwise_placesIn (db : Database) (name : String) :
    (db.placesIn name).Pairwise PairPlace.Precedes := by
  have hsorted : (db.group name).zipIdx.Pairwise fun x y => x.2 < y.2 := by
    rw [← List.pairwise_map, List.zipIdx_map_snd]
    exact List.pairwise_lt_range'
  rw [placesIn, List.pairwise_map]
  refine ((pairwise_pairs hsorted).filter _).imp fun {p q} h => .inr ⟨rfl, ?_⟩
  rcases h with hlower | ⟨hlower, hhigher⟩
  · exact .inl hlower
  · exact .inr ⟨congrArg Prod.snd hlower, hhigher⟩

/-! ### Other orders of insertion -/

section perm

variable {db' : Database} {records records' : List Record} (h : Holds db records)
  (h' : Holds db' records') (hperm : records'.Perm records)
include h h' hperm

theorem names_eq_of_perm : db'.names = db.names := by
  refine eq_of_pairwise_lt h'.pairwise_names h.pairwise_names fun name => ?_
  rw [h.mem_names, h'.mem_names, (hperm.map _).mem_iff]

theorem perm_group (name : String) : (db'.group name).Perm (db.group name) := by
  rw [h.group_eq, h'.group_eq]
  exact hperm.filter _

theorem perm_discrepancies : db'.discrepancies.Perm db.discrepancies := by
  simp only [discrepancies, sortedGroups, names_eq_of_perm h h' hperm, List.flatMap_map]
  refine List.Perm.flatMap_left _ fun name _ => ?_
  refine perm_filterMap_pairs (fun a b => ?_) (perm_group h h' hperm name)
  simp only [discrepancy?_comm a b]

end perm

/-- After any events the pairs of records that are told to differ are those that do, each once and
in the order of their places: by name, and within a group by the lower and then by the higher
place. A database that holds the same records in another order tells the same pairs. -/
theorem discrepancies_follow [Capacity] (d : Dictionaries) (events : List Event) :
    let db := follow d events
    (∃ places : List PairPlace, places.Pairwise PairPlace.Precedes ∧
      List.Forall₂ db.DifferAt places db.discrepancies ∧
      ∀ place found, db.DifferAt place found → place ∈ places) ∧
    ∀ d' events', (follow d' events').records.Perm db.records →
      (follow d' events').discrepancies.Perm db.discrepancies := by
  intro db
  obtain ⟨held, htracks, -⟩ := tracks_follow d events
  refine ⟨⟨db.names.flatMap db.placesIn, ?_, ?_, ?_⟩, ?_⟩
  · rw [List.pairwise_flatMap]
    refine ⟨fun name _ => pairwise_placesIn db name, ?_⟩
    refine htracks.holds.pairwise_names.imp fun {a b} hlt p hp q hq => .inl ?_
    rwa [name_of_mem_placesIn hp, name_of_mem_placesIn hq]
  · rw [discrepancies, sortedGroups, List.flatMap_map]
    have hnames : List.Forall₂ Eq db.names db.names := List.forall₂_refl db.names
    refine List.rel_flatMap hnames ?_
    rintro name _ rfl
    exact forall₂_placesIn db name
  · intro place found h
    exact List.mem_flatMap.mpr ⟨place.name, h.mem_names htracks.holds, mem_placesIn h⟩
  · intro d' events' hperm
    obtain ⟨held', htracks', -⟩ := tracks_follow d' events'
    refine perm_discrepancies htracks.holds htracks'.holds ?_
    exact htracks'.holds.perm_records.symm.trans (hperm.trans htracks.holds.perm_records)

end Database

end InstrTable
