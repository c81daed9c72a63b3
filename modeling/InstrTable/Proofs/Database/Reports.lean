import InstrTable.Builtin.X86
import InstrTable.Proofs.Database.Answers
import InstrTable.Proofs.Database.Tallies
import Mathlib.Algebra.BigOperators.Group.List.Basic
import Mathlib.Algebra.Ring.Nat

/-!
Problems that are reported against records that a database already holds. A record is
counted with the problems that it has when it is inserted, and the count does not follow
the record afterwards: it is the number of problems of all records just as long as none
of these has got another one.
-/

namespace InstrTable

namespace Record

/-- The record with one more problem. -/
def report (r : Record) (d : Diagnostic) : Record :=
  { r with diagnostics := r.diagnostics.report d }

@[simp] theorem name_report (r : Record) (d : Diagnostic) : (r.report d).name = r.name := rfl

@[simp] theorem invalid_report (r : Record) (d : Diagnostic) :
    (r.report d).invalid = r.invalid + 1 :=
  Diagnostics.count_report r.diagnostics d

theorem messages_eq_nil_iff (r : Record) : r.diagnostics.messages = [] ↔ r.invalid = 0 := by
  rw [← List.length_eq_zero_iff, Diagnostics.length_messages, invalid]

end Record

namespace Database

/-- A record as it was inserted, and the problems that were reported against it since. -/
structure Held where
  inserted : Record
  later : List Diagnostic

/-- The record as it is now. -/
def Held.current (h : Held) : Record := h.later.foldl Record.report h.inserted

theorem Held.invalid_current (h : Held) :
    h.current.invalid = h.inserted.invalid + h.later.length := by
  obtain ⟨r, ds⟩ := h
  simp only [current]
  induction ds generalizing r with
  | nil => rfl
  | cons d ds ih =>
      rw [List.foldl_cons, ih, Record.invalid_report, List.length_cons]
      omega

/-- Something that happens to a database: an operation, or a report against one of the
records that it holds. -/
inductive Event where
  | operation (o : Operation)
  | report (selection : Selection) (i : Int) (text : String)

namespace Event

def inserts [Capacity] (d : Dictionaries) : Event → List Record
  | .operation o => o.inserts d
  | .report .. => []

end Event

def next [Capacity] (db : Database) : Event → Database
  | .operation o => db.step o
  | .report selection i text =>
    match db.report selection i text with
    | .ok (db', _) => db'
    | .error _ => db

/-- The reports that an event makes against records of the database, one or none. A report
against a record that is not there fails. -/
def reported (db : Database) : Event → Nat
  | .operation _ => 0
  | .report selection i text =>
    match db.report selection i text with
    | .ok _ => 1
    | .error _ => 0

/-- The database after some events, from an empty one on. -/
def follow [Capacity] (d : Dictionaries) (events : List Event) : Database :=
  events.foldl next { dictionaries := d }

/-- All records that some events insert, as they were then. -/
def arrivals [Capacity] (d : Dictionaries) (events : List Event) : List Record :=
  events.flatMap (·.inserts d)

/-- The number of reports that events make against records of the database. -/
def lateReports [Capacity] (db : Database) : List Event → Nat
  | [] => 0
  | e :: events => db.reported e + lateReports (db.next e) events

variable {db : Database}

/-! ### What one report changes -/

/-- A report is against one record of one group, and changes nothing else. -/
theorem report_cases {selection : Selection} {i : Int} {text message : String} {db' : Database}
    (h : db.report selection i text = .ok (db', message)) :
    ∃ name k, k < (db.group name).length ∧
      db' = { db with
        groups := db.groups.insert name
          ((db.group name).modify k (·.report (Diagnostic.note text))) } := by
  have hplaces : ∀ n, ∀ p ∈ places.placesOf db n, p.2 < (db.group p.1).length := by
    simp [places.placesOf]
  have hlt : ∀ p ∈ db.places selection, p.2 < (db.group p.1).length := by
    intro p hp
    cases selection with
    | name n => exact hplaces n p hp
    | all | names =>
        obtain ⟨n, _, hn⟩ := List.mem_flatMap.mp hp
        exact hplaces n p hn
  simp only [report] at h
  split at h
  · contradiction
  · next name k hplace =>
      obtain ⟨j, _, hj⟩ := Option.bind_eq_some_iff.mp hplace
      simp only [Except.ok.injEq, Prod.mk.injEq] at h
      exact ⟨name, k, hlt (name, k) (List.mem_of_getElem? hj), h.1.symm⟩

/-- The record in place `k` among those that satisfy `p` stands somewhere in the list, and
changing it there changes it among them. -/
theorem exists_modify_filter {α : Type} {p : α → Bool} {f : α → α} (hf : ∀ a, p (f a) = p a)
    {items : List α} {k : Nat} (hk : k < (items.filter p).length) :
    ∃ before a after, items = before ++ a :: after ∧ p a = true ∧
      (items.filter p).modify k f = (before ++ f a :: after).filter p := by
  have hcut : items.filter p =
      (items.filter p).take k ++ (items.filter p)[k] :: (items.filter p).drop (k + 1) := by
    rw [← List.drop_eq_getElem_cons hk, List.take_append_drop]
  obtain ⟨front, back, hitems, hfront, hback⟩ := List.filter_eq_append_iff.mp hcut
  obtain ⟨skipped, after, hrest, hskipped, ha, hafter⟩ := List.filter_eq_cons_iff.mp hback
  have hnone : skipped.filter p = [] := List.filter_eq_nil_iff.mpr hskipped
  refine ⟨front ++ skipped, (items.filter p)[k], after, ?_, ha, ?_⟩
  · rw [List.append_assoc, ← hrest]
    exact hitems
  · rw [List.modify_eq_take_cons_drop hk, List.filter_append, List.filter_append, hfront, hnone,
      List.filter_cons_of_pos ((hf _).trans ha), hafter, List.append_nil]

/-- A report is against one of the records, and the database holds it with the problem
from then on. -/
theorem Holds.report {records : List Record} (h : Holds db records) {selection : Selection}
    {i : Int} {text message : String} {db' : Database}
    (hreport : db.report selection i text = .ok (db', message)) :
    ∃ before r after, records = before ++ r :: after ∧
      Holds db' (before ++ r.report (Diagnostic.note text) :: after) := by
  obtain ⟨name, k, hk, rfl⟩ := report_cases hreport
  rw [h.group_eq] at hk ⊢
  obtain ⟨before, r, after, hrecords, hname, hmodify⟩ :=
    exists_modify_filter (f := (·.report (Diagnostic.note text))) (fun _ => rfl) hk
  have hr : r.name = name := by simpa using hname
  have hmem : name ∈ records.map (·.name) := by
    rw [hrecords, ← hr]
    simp
  have hkeys : ∀ group : List Record, (db.groups.insert name group).keys = db.groups.keys := by
    intro group
    rw [Keyed.keys_insert, if_pos ((h.mem_keys name).mpr hmem)]
  refine ⟨before, r, after, hrecords, ?_, ?_, ?_⟩
  · intro other
    by_cases hother : other = name
    · subst hother
      simp [group, hmodify]
    · have hsame : (db.group other) = (before ++ r :: after).filter (·.name = other) := by
        rw [h.group_eq, hrecords]
      have hne : r.name ≠ other := fun heq => hother (heq.symm.trans hr)
      simp only [group] at hsame
      simp [group, hother, hsame, hne]
  · intro other
    rw [hkeys, h.mem_keys, hrecords]
    simp
  · intro names hindex
    rw [hkeys]
    exact h.index_eq names hindex

/-! ### What events keep -/

/-- What a database holds and counts after some events. -/
structure Tracks (db : Database) (held : List Held) : Prop where
  holds : Holds db (held.map Held.current)
  invalid_eq : db.stats.invalid = (held.map fun h => h.inserted.invalid).sum

variable {held : List Held}

theorem dictionaries_next [Capacity] (db : Database) (e : Event) :
    (db.next e).dictionaries = db.dictionaries := by
  cases e with
  | operation o => exact dictionaries_step db o
  | report selection i text =>
      simp only [next]
      split
      · next db' message h =>
          obtain ⟨name, k, _, rfl⟩ := report_cases h
          rfl
      · rfl

theorem invalid_step [Capacity] (db : Database) (o : Operation) :
    (db.step o).stats.invalid =
      db.stats.invalid + ((o.inserts db.dictionaries).map Record.invalid).sum := by
  have hstart : db.stats.invalid =
      db.stats.invalid + (([] : List Record).map Record.invalid).sum := rfl
  exact (kept_invalid db.stats.invalid).step hstart o

theorem Tracks.step [Capacity] (h : Tracks db held) (o : Operation) :
    Tracks (db.step o) (held ++ (o.inserts db.dictionaries).map fun r => ⟨r, []⟩) where
  holds := by
    have hcurrent : ((o.inserts db.dictionaries).map fun r => Held.mk r []).map Held.current =
        o.inserts db.dictionaries := by
      rw [List.map_map]
      exact List.map_id _
    rw [List.map_append, hcurrent]
    exact h.holds.step o
  invalid_eq := by
    rw [invalid_step, h.invalid_eq]
    simp [Function.comp_def]

/-- A report adds a problem to one record that the database holds, and nothing to the
count. -/
theorem Tracks.report (h : Tracks db held) {selection : Selection} {i : Int}
    {text message : String} {db' : Database}
    (hreport : db.report selection i text = .ok (db', message)) :
    ∃ held', Tracks db' held' ∧ held'.map Held.inserted = held.map Held.inserted ∧
      (held'.map fun r => r.later.length).sum = (held.map fun r => r.later.length).sum + 1 := by
  obtain ⟨before, r, after, hrecords, hholds⟩ := h.holds.report hreport
  have hstats : db'.stats = db.stats := by
    obtain ⟨name, k, _, rfl⟩ := report_cases hreport
    rfl
  obtain ⟨front, back, hheld, hfront, hback⟩ := List.map_eq_append_iff.mp hrecords
  obtain ⟨x, rest, rfl, hx, hrest⟩ := List.map_eq_cons_iff.mp hback
  refine ⟨front ++ ⟨x.inserted, x.later ++ [Diagnostic.note text]⟩ :: rest, ⟨?_, ?_⟩, ?_, ?_⟩
  · have hnow : Held.current ⟨x.inserted, x.later ++ [Diagnostic.note text]⟩ =
        r.report (Diagnostic.note text) := by
      rw [← hx]
      simp [Held.current]
    rw [List.map_append, List.map_cons, hnow, hfront, hrest]
    exact hholds
  · rw [hstats, h.invalid_eq, hheld]
    simp
  · rw [hheld]
    simp
  · rw [hheld]
    simp only [List.map_append, List.map_cons, List.sum_append, List.sum_cons, List.length_append,
      List.length_singleton]
    omega

theorem Tracks.next [Capacity] (h : Tracks db held) (e : Event) :
    ∃ held', Tracks (db.next e) held' ∧
      held'.map Held.inserted = held.map Held.inserted ++ e.inserts db.dictionaries ∧
      (held'.map fun r => r.later.length).sum =
        (held.map fun r => r.later.length).sum + db.reported e := by
  cases e with
  | operation o =>
      refine ⟨_, h.step o, ?_, ?_⟩
      · simp [Event.inserts, Function.comp_def]
      · simp [reported, Function.comp_def]
  | report selection i text =>
      cases hreport : db.report selection i text with
      | error => exact ⟨held, by simpa [Database.next, hreport] using h, by simp [Event.inserts],
          by simp [reported, hreport]⟩
      | ok result =>
          obtain ⟨db', message⟩ := result
          obtain ⟨held', htracks, hinserted, hlater⟩ := h.report hreport
          exact ⟨held', by simpa [Database.next, hreport] using htracks,
            by simpa [Event.inserts] using hinserted, by simpa [reported, hreport] using hlater⟩

theorem Tracks.foldl_next [Capacity] (h : Tracks db held) (events : List Event) :
    ∃ held', Tracks (events.foldl Database.next db) held' ∧
      held'.map Held.inserted = held.map Held.inserted ++ arrivals db.dictionaries events ∧
      (held'.map fun r => r.later.length).sum =
        (held.map fun r => r.later.length).sum + lateReports db events := by
  induction events generalizing db held with
  | nil => exact ⟨held, h, by simp [arrivals], rfl⟩
  | cons e events ih =>
      obtain ⟨held₁, htracks₁, hinserted₁, hlater₁⟩ := h.next e
      obtain ⟨held₂, htracks₂, hinserted₂, hlater₂⟩ := ih htracks₁
      refine ⟨held₂, htracks₂, ?_, ?_⟩
      · rw [hinserted₂, hinserted₁, dictionaries_next, List.append_assoc]
        rfl
      · rw [hlater₂, hlater₁, lateReports, Nat.add_assoc]

theorem tracks_follow [Capacity] (d : Dictionaries) (events : List Event) :
    ∃ held, Tracks (follow d events) held ∧ held.map Held.inserted = arrivals d events ∧
      (held.map fun r => r.later.length).sum = lateReports { dictionaries := d } events := by
  have hempty : Tracks { dictionaries := d } [] := ⟨holds_empty d, rfl⟩
  obtain ⟨held, htracks, hinserted, hlater⟩ := hempty.foldl_next events
  exact ⟨held, htracks, by simpa using hinserted, by simpa using hlater⟩

theorem Tracks.sum_invalid (h : Tracks db held) :
    (db.records.map Record.invalid).sum =
      db.stats.invalid + (held.map fun r => r.later.length).sum := by
  rw [(h.holds.perm_records.map Record.invalid).sum_nat, h.invalid_eq, List.map_map, ← List.sum_map_add]
  exact congrArg List.sum (List.map_congr_left fun r _ => r.invalid_current)

/-- After any events a database has counted the problems that its records had when they
were inserted. The problems that they have now are more by one for each report since, so
the count is theirs just if there was none. -/
theorem invalid_eq_sum_iff [Capacity] (d : Dictionaries) (events : List Event) :
    let db := follow d events
    let late := lateReports { dictionaries := d } events
    db.stats.invalid = ((arrivals d events).map Record.invalid).sum ∧
      (∃ held : List Held, held.map Held.inserted = arrivals d events ∧
        db.records.Perm (held.map Held.current)) ∧
      (db.records.map Record.invalid).sum = db.stats.invalid + late ∧
      (db.stats.invalid = (db.records.map Record.invalid).sum ↔ late = 0) ∧
      ((∀ r ∈ db.records, r.diagnostics.messages = []) ↔ db.stats.invalid = 0 ∧ late = 0) := by
  intro db late
  obtain ⟨held, htracks, hinserted, hlater⟩ := tracks_follow d events
  have hsum : (db.records.map Record.invalid).sum = db.stats.invalid + late := by
    rw [htracks.sum_invalid, hlater]
  refine ⟨?_, ⟨held, hinserted, htracks.holds.perm_records⟩, hsum, ?_, ?_⟩
  · rw [htracks.invalid_eq, ← hinserted, List.map_map]
    rfl
  · omega
  · rw [← Nat.add_eq_zero_iff, ← hsum, List.sum_eq_zero_iff_forall_eq_nat]
    simp [Record.messages_eq_nil_iff]

/-- A clean record is inserted, and a problem is reported against it. The count says that
there is none. -/
theorem late_report_not_counted :
    let events : List Event :=
      [.operation (.addRows [.listed ["nop", "", "NONE", "90", ""]]),
        .report (.name "nop") 0 "late"]
    let db := follow Builtin.X86.dictionaries events
    db.stats.records = 1 ∧ db.stats.invalid = 0 ∧
      (db.records.map fun r => r.diagnostics.messages) = [["nop: late"]] := by
  decide +kernel

end Database

end InstrTable
