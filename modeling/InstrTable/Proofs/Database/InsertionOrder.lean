import InstrTable.Proofs.Database.Discrepancies

/-!
Insertion in another order. What a database counts and answers depends on which records came,
and not on when: only a group keeps the order of its records. Which alias of a name is kept
depends on the order just where there is more than one.
-/

namespace InstrTable

variable {records records' : List Record}

/-- Whether all records of one name that are aliases are aliases of the same. -/
def Unambiguous (records : List Record) : Prop :=
  ∀ r ∈ records, ∀ r' ∈ records, r.name = r'.name → r.aliasOf ≠ "" → r'.aliasOf ≠ "" →
    r.aliasOf = r'.aliasOf

instance (records : List Record) : Decidable (Unambiguous records) :=
  inferInstanceAs (Decidable (∀ r ∈ records, ∀ r' ∈ records, r.name = r'.name →
    r.aliasOf ≠ "" → r'.aliasOf ≠ "" → r.aliasOf = r'.aliasOf))

theorem Unambiguous.perm (h : Unambiguous records) (hperm : records'.Perm records) :
    Unambiguous records' := fun r hr r' hr' =>
  h r (hperm.mem_iff.mp hr) r' (hperm.mem_iff.mp hr')

theorem count?_perm {texts texts' : List String} (h : texts'.Perm texts) (text : String) :
    count? texts' text = count? texts text := by
  simp only [count?, h.mem_iff, h.count_eq]

/-! ### Aliases -/

theorem exists_lastAlias? {r : Record} (hr : r ∈ records) (halias : r.aliasOf ≠ "") :
    ∃ target, lastAlias? records r.name = some target := by
  have hmem : r ∈ records.filter fun r' => r'.name = r.name ∧ r'.aliasOf ≠ "" :=
    List.mem_filter.mpr ⟨hr, decide_eq_true ⟨rfl, halias⟩⟩
  have hsome := List.getLast?_isSome.mpr (List.ne_nil_of_mem hmem)
  obtain ⟨last, hlast⟩ := Option.isSome_iff_exists.mp hsome
  exact ⟨last.aliasOf, by rw [lastAlias?, hlast, Option.map_some]⟩

/-- Where there is but one alias of a name, any record that has it tells it. -/
theorem Unambiguous.lastAlias?_eq_some_iff (h : Unambiguous records) {name target : String} :
    lastAlias? records name = some target ↔
      ∃ r ∈ records, r.name = name ∧ r.aliasOf = target ∧ target ≠ "" := by
  refine ⟨exists_of_lastAlias?, ?_⟩
  rintro ⟨r, hr, rfl, rfl, halias⟩
  obtain ⟨target, htarget⟩ := exists_lastAlias? hr halias
  obtain ⟨r', hr', hname, rfl, halias'⟩ := exists_of_lastAlias? htarget
  rw [htarget, h r' hr' r hr hname halias' halias]

theorem Unambiguous.lastAlias?_perm (h : Unambiguous records) (hperm : records'.Perm records)
    (name : String) : lastAlias? records' name = lastAlias? records name := by
  refine Option.ext fun target => ?_
  rw [h.lastAlias?_eq_some_iff, (h.perm hperm).lastAlias?_eq_some_iff]
  simp only [hperm.mem_iff]

/-- Any record that is an alias may come last. So if the last one does not matter, all of a name
are aliases of the same. -/
theorem unambiguous_of_lastAlias?
    (h : ∀ records', records'.Perm records → ∀ name,
      lastAlias? records' name = lastAlias? records name) : Unambiguous records := by
  have hlast (r : Record) (hr : r ∈ records) (halias : r.aliasOf ≠ "") :
      lastAlias? records r.name = some r.aliasOf := by
    have hperm : (records.erase r ++ [r]).Perm records :=
      (List.perm_append_singleton r _).trans (List.perm_cons_erase hr).symm
    rw [← h _ hperm, lastAlias?_concat, if_pos ⟨rfl, halias⟩]
  intro r hr r' hr' hname halias halias'
  refine Option.some.inj ?_
  rw [← hlast r hr halias, ← hlast r' hr' halias', hname]

namespace Database

/-! ### Databases with the same records -/

/-- Databases that count the same and answer the same, up to the order within a group. -/
structure Agree (db db' : Database) : Prop where
  records : db'.stats.records = db.stats.records
  groups : db'.stats.groups = db.stats.groups
  invalid : db'.stats.invalid = db.stats.invalid
  prefixes : ∀ name, db'.stats.prefixes.get? name = db.stats.prefixes.get? name
  names : db'.names = db.names
  group : ∀ name, (db'.group name).Perm (db.group name)
  extensions : ∀ name, db'.extensions name = db.extensions name
  countAttribute : ∀ name key value,
    db'.countAttribute name key value = db.countAttribute name key value

theorem length_names {db : Database} (h : Holds db records) :
    db.names.length = db.groups.keys.length := by
  rw [h.names_eq, List.length_mergeSort]

theorem extensions_perm {db db' : Database} {name : String}
    (h : (db'.group name).Perm (db.group name)) : db'.extensions name = db.extensions name := by
  refine eq_of_pairwise_lt (pairwise_extensions db' name) (pairwise_extensions db name) ?_
  intro extension
  simp only [extensions, List.mem_mergeSort, List.mem_eraseDups, List.mem_flatMap, h.mem_iff]

/-- What is kept by every insertion holds of the records of a list that is inserted. -/
theorem Kept.of_insertAll {P : Database → List Record → Prop} (hP : Kept P) {d : Dictionaries}
    (h : P { dictionaries := d } []) (records : List Record) :
    P (Database.insertAll { dictionaries := d } records) records := by
  simpa using hP.insertAll h records

theorem agree_insertAll (d d' : Dictionaries) (hperm : records'.Perm records) :
    Agree (insertAll { dictionaries := d } records)
      (insertAll { dictionaries := d' } records') := by
  have hholds := kept_holds.of_insertAll (holds_empty d) records
  have hholds' := kept_holds.of_insertAll (holds_empty d') records'
  have hnames := names_eq_of_perm hholds hholds' hperm
  have hgroup := perm_group hholds hholds' hperm
  constructor
  case records =>
    rw [kept_records.of_insertAll rfl records, kept_records.of_insertAll rfl records',
      hperm.length_eq]
  case groups =>
    rw [kept_groups.of_insertAll rfl records, kept_groups.of_insertAll rfl records',
      ← length_names hholds, ← length_names hholds', hnames]
  case invalid =>
    rw [(kept_invalid 0).of_insertAll rfl records, (kept_invalid 0).of_insertAll rfl records',
      (hperm.map Record.invalid).sum_nat]
  case prefixes =>
    intro name
    rw [kept_prefixes.of_insertAll (fun _ => rfl) records,
      kept_prefixes.of_insertAll (fun _ => rfl) records']
    exact count?_perm (hperm.filterMap _) name
  case names => exact hnames
  case group => exact hgroup
  case extensions => exact fun name => extensions_perm (hgroup name)
  case countAttribute => exact fun name key value => (hgroup name).countP_eq _

theorem aliases_insertAll (d : Dictionaries) (records : List Record) (name : String) :
    (insertAll { dictionaries := d } records).aliases.get? name = lastAlias? records name :=
  kept_aliases.of_insertAll (fun _ => rfl) records name

/-- Records that are inserted in another order make a database with the same counts and the same
answers, in which each group has the order of its own list. The aliases are the same for every
order just if no name is an alias of two. -/
theorem insertAll_perm (d : Dictionaries) (records : List Record) :
    let db := insertAll { dictionaries := d } records
    (∀ d' records', records'.Perm records →
      let db' := insertAll { dictionaries := d' } records'
      Agree db db' ∧ ∀ name, db'.group name = records'.filter (·.name = name)) ∧
    ((∀ d' records', records'.Perm records → ∀ name,
      (insertAll { dictionaries := d' } records').aliases.get? name = db.aliases.get? name) ↔
        Unambiguous records) := by
  intro db
  refine ⟨fun d' records' hperm => ⟨agree_insertAll d d' hperm, ?_⟩, fun h => ?_,
    fun h d' records' hperm name => ?_⟩
  · exact (kept_holds.of_insertAll (holds_empty d') records').group_eq
  · refine unambiguous_of_lastAlias? fun records' hperm name => ?_
    rw [← aliases_insertAll d, ← aliases_insertAll d]
    exact h d records' hperm name
  · rw [aliases_insertAll, aliases_insertAll]
    exact h.lastAlias?_perm hperm name

/-- The two records of one name change places, and the one that is an alias is found in either
order. -/
theorem insertAll_perm_reverse :
    let d := Builtin.Arm.dictionaries
    let rows : List Row := [
      .listed ["adc/adcs", "Rd, Rn, Rm", "A32", "Cond|0000101|S|Rn|Rd|00000000|Rm", "Op=Adc"],
      .listed ["adcs", "Rx, Rm", "T16", "0100000101|Rm:3|Rx:3", "Op=Adc"]]
    let records := rows.flatMap (·.records d)
    let db := insertAll { dictionaries := d } records
    let db' := insertAll { dictionaries := d } records.reverse
    records.map (·.name) = ["adc", "adcs", "adcs"] ∧ records.reverse.Perm records ∧
      Unambiguous records ∧ Agree db db' ∧ db'.group "adcs" = (db.group "adcs").reverse ∧
      db'.aliases.get? "adcs" = db.aliases.get? "adcs" := by
  intro d rows records db db'
  have hnames : records.map (·.name) = ["adc", "adcs", "adcs"] := by decide +kernel
  have hunambiguous : Unambiguous records := by decide +kernel
  have hperm : records.reverse.Perm records := List.reverse_perm records
  obtain ⟨horder, haliases⟩ := insertAll_perm d records
  obtain ⟨hagree, hgroup'⟩ := horder d records.reverse hperm
  obtain ⟨-, hgroup⟩ := horder d records (.refl _)
  refine ⟨hnames, hperm, hunambiguous, hagree, ?_,
    haliases.mpr hunambiguous d records.reverse hperm "adcs"⟩
  rw [hgroup', hgroup, List.filter_reverse]

end Database

end InstrTable
