import InstrTable.Proofs.Database.Run

/-!
What a database answers after a run, said of the inserted records alone: listings
are the records sorted by name, and a name selects the records that have it. No
answer depends on when the index was made.
-/

namespace InstrTable

namespace Database

variable {db : Database} {records : List Record}

theorem Holds.pairwise_names (h : Holds db records) : db.names.Pairwise (· < ·) := by
  rw [h.names_eq]
  exact pairwise_lt_mergeSort (Keyed.nodup_keys _)

theorem Holds.mem_names (h : Holds db records) (name : String) :
    name ∈ db.names ↔ name ∈ records.map (·.name) := by
  rw [h.names_eq, List.mem_mergeSort, h.mem_keys]

/-- A listing is the stable sort of the records. -/
theorem Holds.records_eq (h : Holds db records) :
    db.records = records.mergeSort fun a b => decide (a.name ≤ b.name) := by
  have hgroup : db.group = fun name =>
      (records.mergeSort fun a b => decide (a.name ≤ b.name)).filter (·.name = name) := by
    funext name
    rw [h.group_eq, filter_mergeSort_key Record.name]
  rw [Database.records, hgroup]
  refine flatMap_filter_key Record.name h.pairwise_names
    (pairwise_mergeSort_key Record.name records) ?_
  intro r hr
  rw [h.mem_names]
  exact List.mem_map_of_mem (List.mem_mergeSort.mp hr)

theorem Holds.perm_records (h : Holds db records) : db.records.Perm records := by
  rw [h.records_eq]
  exact List.mergeSort_perm _ _

theorem map_fst_sortedGroups (db : Database) : db.sortedGroups.map Prod.fst = db.names := by
  simp [sortedGroups, Function.comp_def]

theorem Holds.snd_of_mem_sortedGroups (h : Holds db records) {g : String × List Record}
    (hg : g ∈ db.sortedGroups) : g.2 = records.filter (·.name = g.1) := by
  obtain ⟨name, _, rfl⟩ := List.mem_map.mp hg
  exact h.group_eq name

theorem pairwise_extensions (db : Database) (name : String) :
    (db.extensions name).Pairwise (· < ·) :=
  pairwise_lt_mergeSort (nodup_eraseDups _)

theorem Holds.mem_extensions (h : Holds db records) (name extension : String) :
    extension ∈ db.extensions name ↔
      ∃ r ∈ records.filter (·.name = name), extension ∈ r.metadata.extensions := by
  rw [extensions, List.mem_mergeSort, List.mem_eraseDups, h.group_eq, List.mem_flatMap]

/-- After any sequence of insertions, batches, and queries, the answers of a database
are determined by the inserted records and their order. The index, where there is
one, has exactly their names. -/
theorem answers_run [Capacity] (d : Dictionaries) (operations : List Operation) :
    let db := run d operations
    let records := inserted d operations
    let named (name : String) := records.filter (·.name = name)
    db.records = records.mergeSort (fun a b => decide (a.name ≤ b.name)) ∧
      db.query .all = records.mergeSort (fun a b => decide (a.name ≤ b.name)) ∧
      (db.sortedGroups.map Prod.fst).Pairwise (· < ·) ∧
      (∀ name, name ∈ db.sortedGroups.map Prod.fst ↔ name ∈ records.map (·.name)) ∧
      (∀ g ∈ db.sortedGroups, g.2 = named g.1) ∧
      (∀ name, db.query (.name name) = named name) ∧
      (∀ names, db.query (.names names) = names.flatMap named) ∧
      (∀ name, (db.extensions name).Pairwise (· < ·)) ∧
      (∀ name extension, extension ∈ db.extensions name ↔
        ∃ r ∈ named name, extension ∈ r.metadata.extensions) ∧
      (∀ name, db.contains name = true ↔ name ∈ records.map (·.name)) ∧
      ∀ names, db.index = some names →
        names.Pairwise (· < ·) ∧ ∀ name, name ∈ names ↔ name ∈ records.map (·.name) := by
  intro db records named
  have h : Holds db records := holds_run d operations
  have hgroup : db.group = named := funext h.group_eq
  refine ⟨h.records_eq, h.records_eq, ?_, ?_, fun g hg => h.snd_of_mem_sortedGroups hg,
    h.group_eq, ?_, pairwise_extensions db, h.mem_extensions, h.contains_iff, ?_⟩
  · rw [map_fst_sortedGroups]
    exact h.pairwise_names
  · intro name
    rw [map_fst_sortedGroups]
    exact h.mem_names name
  · intro names
    rw [query, hgroup]
  · intro names hindex
    have hnames : db.names = names := by simp [Database.names, hindex]
    rw [← hnames]
    exact ⟨h.pairwise_names, h.mem_names⟩

end Database

end InstrTable
