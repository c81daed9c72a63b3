import InstrTable.Database
import InstrTable.Proofs.Keyed
import InstrTable.Proofs.Sorting

/-!
Runs of a database: any sequence of insertions, batches, and queries from the empty
database on. After every run the groups hold the inserted records under their names,
and the index, where there is one, is what sorting the names anew would give.
-/

namespace InstrTable

namespace Database

/-- What a database can be asked. -/
inductive Query where
  | names
  | records
  | groups
  | select (selection : Selection)
  | extensions (name : String)
  | count (name key : String) (value : Option Document)
  | discrepancies
  | table
  | contains (name : String)

/-- The database as a query leaves it. A listing brings the index up to date. -/
def Query.leave (db : Database) : Query → Database
  | .names | .records | .groups | .discrepancies | .table => db.indexed
  | .select selection => db.afterQuery selection
  | .extensions _ | .count .. | .contains _ => db

inductive Operation where
  | insert (r : Record)
  | addRows (rows : List Row)
  | query (q : Query)

/-- The records that an operation inserts. A batch that cannot be read inserts none. -/
def Operation.inserts [Capacity] (d : Dictionaries) : Operation → List Record
  | .insert r => [r]
  | .addRows rows =>
    match (Batch.read d rows).1 with
    | .ok records => records
    | .error _ => []
  | .query _ => []

def step [Capacity] (db : Database) : Operation → Database
  | .insert r => db.insert r
  | .addRows rows =>
    match (db.addRows rows).1 with
    | .ok db' => db'
    | .error _ => db
  | .query q => q.leave db

/-- The database after some operations on an empty one. -/
def run [Capacity] (d : Dictionaries) (operations : List Operation) : Database :=
  operations.foldl step { dictionaries := d }

/-- All records that some operations insert, in order. -/
def inserted [Capacity] (d : Dictionaries) (operations : List Operation) : List Record :=
  operations.flatMap (·.inserts d)

/-! ### What operations keep -/

/-- Asking changes nothing but the index. -/
theorem leave_eq (db : Database) (q : Query) :
    ∃ index, q.leave db = { db with index := index } := by
  cases q with
  | names | records | groups | discrepancies | table => exact ⟨_, rfl⟩
  | select selection =>
      cases selection with
      | all => exact ⟨_, rfl⟩
      | name | names => exact ⟨db.index, rfl⟩
  | extensions | count | contains => exact ⟨db.index, rfl⟩

theorem dictionaries_insertAll (db : Database) (others : List Record) :
    (db.insertAll others).dictionaries = db.dictionaries := by
  induction others generalizing db with
  | nil => rfl
  | cons r others ih => exact ih (db.insert r)

theorem dictionaries_step [Capacity] (db : Database) (operation : Operation) :
    (db.step operation).dictionaries = db.dictionaries := by
  cases operation with
  | insert r => rfl
  | addRows rows =>
      simp only [step, addRows]
      cases (Batch.read db.dictionaries rows).1 with
      | error => rfl
      | ok others => exact dictionaries_insertAll db others
  | query q =>
      obtain ⟨index, hleave⟩ := leave_eq db q
      rw [step, hleave]

/-- Whether what is said of a database and of the records that were inserted into it stays
true when one more is inserted, and when something is asked. -/
structure Kept (P : Database → List Record → Prop) : Prop where
  insert : ∀ {db : Database} {records : List Record}, P db records → ∀ r : Record,
    P (db.insert r) (records ++ [r])
  leave : ∀ {db : Database} {records : List Record}, P db records → ∀ q : Query,
    P (q.leave db) records

namespace Kept

variable {P : Database → List Record → Prop} (hP : Kept P) {db : Database} {records : List Record}
include hP

theorem insertAll (h : P db records) (others : List Record) :
    P (db.insertAll others) (records ++ others) := by
  induction others generalizing db records with
  | nil => simpa [Database.insertAll] using h
  | cons r others ih => simpa [Database.insertAll] using ih (hP.insert h r)

theorem step [Capacity] (h : P db records) (operation : Operation) :
    P (db.step operation) (records ++ operation.inserts db.dictionaries) := by
  cases operation with
  | insert r => exact hP.insert h r
  | addRows rows =>
      simp only [Database.step, addRows, Operation.inserts]
      cases (Batch.read db.dictionaries rows).1 with
      | error => simpa [Except.map] using h
      | ok others => exact hP.insertAll h others
  | query q =>
      simp only [Operation.inserts, List.append_nil]
      exact hP.leave h q

theorem foldl_step [Capacity] (h : P db records) (operations : List Operation) :
    P (operations.foldl Database.step db) (records ++ inserted db.dictionaries operations) := by
  induction operations generalizing db records with
  | nil => simpa [inserted] using h
  | cons operation operations ih =>
      have hstep := ih (hP.step h operation)
      rw [dictionaries_step] at hstep
      simpa [inserted] using hstep

/-- What holds of an empty database and is kept holds after every run. -/
theorem run [Capacity] {d : Dictionaries} (h : P { dictionaries := d } [])
    (operations : List Operation) :
    P (Database.run d operations) (inserted d operations) :=
  hP.foldl_step h operations

end Kept

/-- What does not speak of the index is kept by every query. -/
theorem kept_of_insert {P : Database → List Record → Prop}
    (hinsert : ∀ {db : Database} {records : List Record}, P db records → ∀ r : Record,
      P (db.insert r) (records ++ [r]))
    (hindex : ∀ {db : Database} {records : List Record} (index : Option (List String)),
      P db records → P { db with index := index } records) : Kept P where
  insert := hinsert
  leave h q := by
    obtain ⟨index, hleave⟩ := leave_eq _ q
    rw [hleave]
    exact hindex index h

/-! ### What a database holds -/

/-- A database that holds `records`, which were inserted in this order. -/
structure Holds (db : Database) (records : List Record) : Prop where
  group_eq : ∀ name, db.group name = records.filter (·.name = name)
  mem_keys : ∀ name, name ∈ db.groups.keys ↔ name ∈ records.map (·.name)
  index_eq : ∀ names, db.index = some names →
    names = db.groups.keys.mergeSort fun a b => decide (a ≤ b)

variable {db : Database} {records : List Record}

theorem group_insert (db : Database) (r : Record) (name : String) :
    (db.insert r).group name = if name = r.name then db.group name ++ [r] else db.group name := by
  by_cases h : name = r.name
  · subst h
    simp [group, insert]
  · simp [group, insert, h]

theorem holds_empty (d : Dictionaries) : Holds { dictionaries := d } [] where
  group_eq _ := rfl
  mem_keys _ := by simp [Keyed.keys, Keyed.empty]
  index_eq _ h := by simp at h

theorem Holds.contains_iff (h : Holds db records) (name : String) :
    db.contains name = true ↔ name ∈ records.map (·.name) := by
  rw [contains, Keyed.contains_iff_mem_keys, h.mem_keys]

theorem Holds.insert (h : Holds db records) (r : Record) :
    Holds (db.insert r) (records ++ [r]) where
  group_eq name := by
    rw [group_insert, h.group_eq, List.filter_append]
    by_cases hname : name = r.name
    · simp [hname]
    · simp [hname, Ne.symm hname]
  mem_keys name := by
    have hkeys : (db.insert r).groups.keys =
        if r.name ∈ db.groups.keys then db.groups.keys else db.groups.keys ++ [r.name] :=
      Keyed.keys_insert _ _ _
    rw [hkeys]
    split
    · next hold =>
      rw [h.mem_keys] at hold ⊢
      simp only [List.map_append, List.mem_append, List.map_cons, List.map_nil,
        List.mem_singleton]
      constructor
      · exact Or.inl
      · rintro (hmem | rfl)
        · exact hmem
        · exact hold
    · simp [h.mem_keys]
  index_eq names hindex := by
    cases hold : db.contains r.name with
    | false => simp [Database.insert, hold] at hindex
    | true =>
        -- an old name adds no key, so the index still fits
        have hkey : r.name ∈ db.groups.keys := (Keyed.contains_iff_mem_keys _ _).mp hold
        have hkeys : (db.insert r).groups.keys = db.groups.keys := by
          simp [Database.insert, Keyed.keys_insert, hkey]
        rw [hkeys]
        exact h.index_eq names (by simpa [Database.insert, hold] using hindex)

theorem Holds.names_eq (h : Holds db records) :
    db.names = db.groups.keys.mergeSort fun a b => decide (a ≤ b) := by
  unfold names
  cases hindex : db.index with
  | none => rfl
  | some names => exact h.index_eq names hindex

theorem Holds.indexed (h : Holds db records) : Holds db.indexed records where
  group_eq := h.group_eq
  mem_keys := h.mem_keys
  index_eq names hindex := by
    have hnames : db.names = names := by simpa [Database.indexed] using hindex
    rw [← hnames]
    exact h.names_eq

theorem Holds.leave (h : Holds db records) (q : Query) : Holds (q.leave db) records := by
  cases q with
  | names | records | groups | discrepancies | table => exact h.indexed
  | select selection =>
      cases selection with
      | all => exact h.indexed
      | name | names => exact h
  | extensions | count | contains => exact h

theorem kept_holds : Kept Holds where
  insert h r := h.insert r
  leave h q := h.leave q

theorem Holds.step [Capacity] (h : Holds db records) (operation : Operation) :
    Holds (db.step operation) (records ++ operation.inserts db.dictionaries) :=
  kept_holds.step h operation

theorem holds_run [Capacity] (d : Dictionaries) (operations : List Operation) :
    Holds (run d operations) (inserted d operations) :=
  kept_holds.run (holds_empty d) operations

end Database

end InstrTable
