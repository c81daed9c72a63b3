import InstrTable.Proofs.Record.Malformed
import InstrTable.Row

/-!
The records of a row. A row has one record for each of its names. They are read one after the
other, but what is read does not depend on the name, so that they differ in nothing else.
-/

namespace InstrTable

namespace Row

end Row

namespace Record

variable [Capacity] {d : Dictionaries} {entry : Entry} {aliasOf : String} {r : Record}
  {ds : Diagnostics}

/-- A record has the name that it was read for. -/
theorem names_of_read (h : read d entry aliasOf = (.ok r, ds)) :
    r.name = entry.name ∧ r.aliasOf = aliasOf := by
  obtain ⟨_, _, _, _, _, -, -, rfl, -⟩ := read_eq_ok_iff.mp h
  exact ⟨rfl, rfl⟩

end Record

namespace Row

section Reading

variable [Capacity] {d : Dictionaries} {entry : Entry} {names : List (String × String)}
  {records : List Record}

/-- Each name gives the record that is read for it. -/
theorem names_of_readNames (h : (readNames d entry names).1 = .ok records) :
    records.map (fun r => (r.name, r.aliasOf)) = names ∧
      ∀ r ∈ records, ∃ ds, Record.read d { entry with name := r.name } r.aliasOf = (.ok r, ds) := by
  induction names generalizing records with
  | nil =>
      obtain rfl := Except.ok.inj h
      simp
  | cons pair names ih =>
      obtain ⟨name, aliasOf⟩ := pair
      unfold readNames at h
      split at h
      · contradiction
      · next r ds hread =>
        obtain ⟨rfl, rfl⟩ := Record.names_of_read hread
        cases hrest : (readNames d entry names).1 with
        | error e => simp [hrest, Except.map] at h
        | ok rest =>
            simp only [hrest, Except.map, Except.ok.injEq] at h
            obtain ⟨hnames, hreads⟩ := ih hrest
            rw [← h, List.map_cons, hnames]
            exact ⟨rfl, List.forall_mem_cons.mpr ⟨⟨ds, hread⟩, hreads⟩⟩

theorem exists_readNames {row : Row} (h : (row.read d).1 = .ok records) :
    ∃ entry first others, row.entry? = some entry ∧ Row.names entry.name = first :: others ∧
      (readNames d entry (aliased (first :: others))).1 = .ok records := by
  unfold read at h
  split at h
  · contradiction
  · next entry hentry =>
    split at h
    · contradiction
    · next hne =>
      obtain ⟨first, others, hnames⟩ := List.exists_cons_of_ne_nil hne
      refine ⟨entry, first, others, hentry, hnames, ?_⟩
      rw [← hnames]
      cases hread : (readNames d entry (aliased (Row.names entry.name))).1 with
      | error e => simp [hread, Except.mapError] at h
      | ok rs => simpa [hread, Except.mapError] using h

end Reading

end Row

end InstrTable
