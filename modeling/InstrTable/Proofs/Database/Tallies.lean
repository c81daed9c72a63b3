import InstrTable.Builtin.Arm
import InstrTable.Proofs.Batch.FirstFailure
import InstrTable.Proofs.Database.Run
import InstrTable.Proofs.Row.Aliases

/-!
The counts that a database keeps, and its aliases. They are changed with every record that
comes and never made anew, and after every run they are what the inserted records say.
-/

namespace InstrTable

/-- The names of the prefix classes that records have. One with a bit template has none. -/
def prefixNames (records : List Record) : List String :=
  records.filterMap fun r => r.prefixClass?.map PrefixClass.name

/-- How often a text is in a list, if it is. -/
def count? (texts : List String) (text : String) : Option Nat :=
  if text ∈ texts then some (texts.count text) else none

/-- What the last record of a name that is an alias is an alias of. -/
def lastAlias? (records : List Record) (name : String) : Option String :=
  (records.filter fun r => r.name = name ∧ r.aliasOf ≠ "").getLast?.map (·.aliasOf)

theorem count?_concat (texts : List String) (other text : String) :
    count? (texts ++ [other]) text =
      if text = other then some ((count? texts other).getD 0 + 1) else count? texts text := by
  by_cases h : text = other
  · subst h
    by_cases hold : text ∈ texts
    · simp [count?, hold]
    · simp [count?, hold, List.count_eq_zero.mpr hold]
  · simp [count?, h, Ne.symm h]

theorem count?_eq_some_iff {texts : List String} {text : String} {n : Nat} :
    count? texts text = some n ↔ 0 < n ∧ n = texts.count text := by
  unfold count?
  split
  · next h =>
    have hpos := List.count_pos_iff.mpr h
    rw [Option.some.injEq]
    omega
  · next h =>
    rw [List.count_eq_zero.mpr h]
    simp
    omega

theorem lastAlias?_concat (records : List Record) (r : Record) (name : String) :
    lastAlias? (records ++ [r]) name =
      if r.name = name ∧ r.aliasOf ≠ "" then some r.aliasOf else lastAlias? records name := by
  unfold lastAlias?
  by_cases h : r.name = name ∧ r.aliasOf ≠ ""
  · simp [h]
  · simp [h]

/-- A name that is an alias is that of a record, which says of what. -/
theorem exists_of_lastAlias? {records : List Record} {name target : String}
    (h : lastAlias? records name = some target) :
    ∃ r ∈ records, r.name = name ∧ r.aliasOf = target ∧ target ≠ "" := by
  obtain ⟨r, hlast, rfl⟩ := Option.map_eq_some_iff.mp h
  obtain ⟨hr, haliased⟩ := List.mem_filter.mp (List.mem_of_getLast? hlast)
  obtain ⟨hname, hne⟩ := of_decide_eq_true haliased
  exact ⟨r, hr, hname, rfl, hne⟩

namespace Database

/-! ### What every count keeps -/

theorem kept_records : Kept fun db records => db.stats.records = records.length := by
  refine kept_of_insert (fun h r => ?_) fun _ h => h
  simp [Database.insert, Stats.add, h]

theorem kept_invalid (n : Nat) :
    Kept fun db records => db.stats.invalid = n + (records.map Record.invalid).sum := by
  refine kept_of_insert (fun h r => ?_) fun _ h => h
  simp only [Database.insert, Stats.add, h, List.map_append, List.sum_append, List.map_cons,
    List.map_nil, List.sum_cons, List.sum_nil]
  omega

theorem kept_groups : Kept fun db _ => db.stats.groups = db.groups.keys.length := by
  refine kept_of_insert (fun {db _} h r => ?_) fun _ h => h
  -- the count grows where a key is new, and only there
  have hnew : db.contains r.name = decide (r.name ∈ db.groups.keys) :=
    Bool.eq_iff_iff.mpr (by simp [contains, Keyed.contains_iff_mem_keys])
  by_cases hold : r.name ∈ db.groups.keys
  · simp [Database.insert, Stats.add, Keyed.keys_insert, h, hnew, hold]
  · simp [Database.insert, Stats.add, Keyed.keys_insert, h, hnew, hold]

theorem kept_sizes :
    Kept fun db records => (db.groups.values.map List.length).sum = records.length := by
  refine kept_of_insert (fun {db records} h r => ?_) fun _ h => h
  have hsum := db.groups.sum_values_insert List.length r.name (db.group r.name ++ [r])
  have hold : ((db.groups.get? r.name).map List.length).getD 0 = (db.group r.name).length := by
    unfold group
    cases db.groups.get? r.name <;> rfl
  rw [hold, h, List.length_append, List.length_singleton] at hsum
  rw [List.length_append, List.length_singleton]
  show ((db.groups.insert r.name (db.group r.name ++ [r])).values.map List.length).sum = _
  omega

theorem kept_prefixes :
    Kept fun db records => ∀ name,
      db.stats.prefixes.get? name = count? (prefixNames records) name := by
  refine kept_of_insert (fun {db records} h r name => ?_) fun _ h => h
  have hnames : prefixNames (records ++ [r]) =
      prefixNames records ++ (r.prefixClass?.map PrefixClass.name).toList := by
    rw [prefixNames, List.filterMap_append]
    cases hclass : r.prefixClass? <;> simp [prefixNames, hclass]
  rw [hnames]
  cases hclass : r.prefixClass? with
  | none => simp [Database.insert, Stats.add, hclass, h]
  | some p => simp [Database.insert, Stats.add, hclass, count?_concat, h]

theorem kept_aliases :
    Kept fun db records => ∀ name, db.aliases.get? name = lastAlias? records name := by
  refine kept_of_insert (fun {db records} h r name => ?_) fun _ h => h
  rw [lastAlias?_concat, ← h]
  by_cases halias : r.aliasOf = ""
  · simp [Database.insert, halias]
  · by_cases hname : name = r.name
    · simp [Database.insert, halias, hname]
    · simp [Database.insert, halias, hname, Ne.symm hname]

end Database

/-! ### The names of a row -/

/-- Whether the names that records are aliases of are names of records. -/
def Resolved (records : List Record) : Prop :=
  ∀ r ∈ records, r.aliasOf ≠ "" → r.aliasOf ∈ records.map (·.name)

theorem resolved_flatMap {α : Type} {items : List α} {records : α → List Record}
    (h : ∀ item ∈ items, Resolved (records item)) : Resolved (items.flatMap records) := by
  intro r hr halias
  obtain ⟨item, hitem, hr⟩ := List.mem_flatMap.mp hr
  rw [List.map_flatMap]
  exact List.mem_flatMap.mpr ⟨item, hitem, h item hitem r hr halias⟩

namespace Row

variable {d : Dictionaries}

/-- A row gives a record for the first of its names, of which all others are aliases. -/
theorem resolved_records [Capacity] (d : Dictionaries) (row : Row) : Resolved (row.records d) := by
  unfold records
  cases hread : (row.read d).1 with
  | error => simp [Resolved]
  | ok records =>
      obtain ⟨entry, first, others, -, -, hnames⟩ := exists_readNames hread
      have hpairs := (names_of_readNames hnames).1
      -- only the first name is no alias, and it is what the others are aliases of
      have hfirst : (first, "") ∈ records.map fun r => (r.name, r.aliasOf) := by
        rw [hpairs]
        exact List.mem_cons_self
      obtain ⟨leader, hleader, hleads⟩ := List.mem_map.mp hfirst
      intro r hr halias
      have hpair : (r.name, r.aliasOf) ∈ aliased (first :: others) :=
        hpairs ▸ List.mem_map_of_mem hr
      have hof : r.aliasOf = leader.name := by
        simp only [aliased, List.mem_cons, List.mem_map, Prod.mk.injEq] at hpair
        rcases hpair with ⟨-, hnone⟩ | ⟨_, -, -, hof⟩
        · exact absurd hnone halias
        · rw [← hof, (Prod.mk.inj hleads).1]
      rw [hof]
      exact List.mem_map_of_mem hleader

end Row

namespace Database

theorem resolved_inserts [Capacity] (d : Dictionaries) {operation : Operation}
    (h : ∀ r, operation ≠ .insert r) : Resolved (operation.inserts d) := by
  cases operation with
  | insert r => exact absurd rfl (h r)
  | query => simp [Operation.inserts, Resolved]
  | addRows rows =>
      simp only [Operation.inserts]
      cases hread : (Batch.read d rows).1 with
      | error => simp [Resolved]
      | ok records =>
          obtain ⟨-, rfl⟩ := Batch.read_eq_ok_iff.mp hread
          exact resolved_flatMap fun row _ => Row.resolved_records d row

theorem resolved_inserted [Capacity] (d : Dictionaries) {operations : List Operation}
    (h : ∀ r, .insert r ∉ operations) : Resolved (inserted d operations) :=
  resolved_flatMap fun _ hoperation =>
    resolved_inserts d fun r hinsert => h r (hinsert ▸ hoperation)

/-! ### The counts of a run -/

variable {db : Database} {records : List Record}

theorem Holds.length_keys (h : Holds db records) :
    db.groups.keys.length = (records.map (·.name)).eraseDups.length := by
  refine ((List.perm_ext_iff_of_nodup (Keyed.nodup_keys _) (nodup_eraseDups _)).mpr ?_).length_eq
  intro name
  rw [h.mem_keys, List.mem_eraseDups]

/-- A group holds a record, and only records of its name. -/
theorem Holds.group_of_get? (h : Holds db records) {name : String} {group : List Record}
    (hgroup : db.groups.get? name = some group) : group ≠ [] ∧ ∀ r ∈ group, r.name = name := by
  have heq : group = records.filter (·.name = name) := by
    rw [← h.group_eq, Database.group, hgroup, Option.getD_some]
  have hname : name ∈ records.map (·.name) := by
    rw [← h.contains_iff, contains, Keyed.contains, hgroup]
    rfl
  obtain ⟨r, hr, hrname⟩ := List.mem_map.mp hname
  refine ⟨List.ne_nil_of_mem (a := r) ?_, ?_⟩
  · rw [heq]
    simpa [hr] using hrname
  · rw [heq]
    intro r hr
    simpa using (List.mem_filter.mp hr).2

/-- After any sequence of insertions, batches, and queries, the counts of a database are
those of the inserted records, and an alias is what the last record says that has its name
and is one. With batches alone, both of its names are in the database. -/
theorem tallies_run [Capacity] (d : Dictionaries) (operations : List Operation) :
    let db := run d operations
    let records := inserted d operations
    db.stats.records = (db.groups.values.map List.length).sum ∧
      db.stats.records = records.length ∧
      db.stats.groups = (records.map (·.name)).eraseDups.length ∧
      (∀ name n, db.stats.prefixes.get? name = some n ↔
        0 < n ∧ n = (prefixNames records).count name) ∧
      db.stats.invalid = (records.map Record.invalid).sum ∧
      (∀ name group, db.groups.get? name = some group →
        group ≠ [] ∧ ∀ r ∈ group, r.name = name) ∧
      (∀ name, db.aliases.get? name = lastAlias? records name) ∧
      ((∀ r, .insert r ∉ operations) → ∀ name target, db.aliases.get? name = some target →
        db.contains name = true ∧ db.contains target = true) := by
  intro db records
  have hholds : Holds db records := holds_run d operations
  have hrecords : db.stats.records = records.length := kept_records.run rfl operations
  have hsizes : (db.groups.values.map List.length).sum = records.length :=
    kept_sizes.run rfl operations
  have hgroups : db.stats.groups = db.groups.keys.length := kept_groups.run rfl operations
  have hinvalid : db.stats.invalid = 0 + (records.map Record.invalid).sum :=
    (kept_invalid 0).run rfl operations
  have hprefixes : ∀ name, db.stats.prefixes.get? name = count? (prefixNames records) name :=
    kept_prefixes.run (fun _ => rfl) operations
  have haliases : ∀ name, db.aliases.get? name = lastAlias? records name :=
    kept_aliases.run (fun _ => rfl) operations
  refine ⟨hrecords.trans hsizes.symm, hrecords, hgroups.trans hholds.length_keys, ?_,
    by rw [hinvalid, Nat.zero_add], fun _ _ => hholds.group_of_get?, haliases, ?_⟩
  · intro name n
    rw [hprefixes, count?_eq_some_iff]
  · intro hbatches name target halias
    obtain ⟨r, hr, rfl, rfl, hne⟩ := exists_of_lastAlias? ((haliases name).symm.trans halias)
    rw [hholds.contains_iff, hholds.contains_iff]
    exact ⟨List.mem_map_of_mem hr, resolved_inserted d hbatches r hr hne⟩

/-- The second name of a row that came in a batch is an alias of the first. -/
theorem tallies_run_adcs :
    let operations : List Operation := [.addRows [.listed
      ["adc/adcs", "Rd, Rn, Rm", "A32", "Cond|0000101|S|Rn|Rd|00000000|Rm", "Op=Adc"]]]
    let db := run Builtin.Arm.dictionaries operations
    (∀ r, .insert r ∉ operations) ∧ db.aliases.get? "adcs" = some "adc" ∧
      db.contains "adcs" = true ∧ db.contains "adc" = true := by
  intro operations db
  have hbatches : ∀ r, .insert r ∉ operations := by simp [operations]
  have halias : db.aliases.get? "adcs" = some "adc" := by decide +kernel
  obtain ⟨-, -, -, -, -, -, -, hnames⟩ := tallies_run Builtin.Arm.dictionaries operations
  exact ⟨hbatches, halias, hnames hbatches "adcs" "adc" halias⟩

end Database

end InstrTable
