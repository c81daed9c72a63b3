import InstrTable.Proofs.Batch.FirstFailure
import InstrTable.Proofs.Database.Run
import Mathlib.Logic.Relation
import Mathlib.Order.WellFounded

/-!
Adding a batch to a database, step by step. The rows are read in turn, or by a pool of
readers that finish them in any order. Either way their results are collected in the
order of the rows, and no record is inserted before all of them are collected, so a batch
with a row that cannot be read leaves the database alone, and the order in which the pool
finishes can not be told from the outcome.
-/

namespace InstrTable

/-- How far a batch has come. -/
inductive Intake.Stage where
  /-- The records of the first rows are collected. -/
  | collecting (taken : List (List Record))
  /-- The records that are still to be inserted. -/
  | inserting (left : List Record)
  | failed (e : BatchError)

/-- A batch on its way into a database. -/
structure Intake where
  db : Database
  /-- What each row gave, once it is read. -/
  results : List (Option (Except RowError (List Record)))
  stage : Intake.Stage

namespace Intake

variable [Capacity]

def start (db : Database) (rows : List Row) : Intake where
  db := db
  results := List.replicate rows.length none
  stage := .collecting []

/-- Whether row `i` may be read next: any row by a pool, and otherwise only the row whose
result is collected next. -/
def MayRead (jobs : Nat) (s : Intake) (i : Nat) : Prop :=
  1 < jobs ∨ ∃ taken, s.stage = .collecting taken ∧ i = taken.length

/-- One step of a batch that is read by `jobs` readers. -/
inductive Step (jobs : Nat) (rows : List Row) : Intake → Intake → Prop
  | read {s : Intake} {i : Nat} {row : Row} (hrow : rows[i]? = some row)
      (hunread : s.results[i]? = some none) (hturn : MayRead jobs s i) :
      Step jobs rows s
        { s with results := s.results.set i (some (row.read s.db.dictionaries).1) }
  | take {s : Intake} {taken : List (List Record)} {records : List Record}
      (hstage : s.stage = .collecting taken)
      (hresult : s.results[taken.length]? = some (some (.ok records))) :
      Step jobs rows s { s with stage := .collecting (taken ++ [records]) }
  | refuse {s : Intake} {taken : List (List Record)} {row : Row} {cause : RowError}
      (hstage : s.stage = .collecting taken) (hrow : rows[taken.length]? = some row)
      (hresult : s.results[taken.length]? = some (some (.error cause))) :
      Step jobs rows s { s with stage := .failed ⟨taken.length, row, cause⟩ }
  | turn {s : Intake} {taken : List (List Record)} (hstage : s.stage = .collecting taken)
      (hall : taken.length = rows.length) :
      Step jobs rows s { s with stage := .inserting taken.flatten }
  | insert {s : Intake} {r : Record} {left : List Record}
      (hstage : s.stage = .inserting (r :: left)) :
      Step jobs rows s { s with db := s.db.insert r, stage := .inserting left }

/-- What is told of a batch where it ends. -/
def outcome (s : Intake) : Except BatchError Database :=
  match s.stage with
  | .failed e => .error e
  | _ => .ok s.db

variable {db : Database} {rows : List Row} {jobs : Nat} {s t : Intake}

/-! ### What a step keeps -/

/-- What holds of the stage and of the database `now` while `rows` are added to `db`. -/
def Stage.Fits (db : Database) (rows : List Row) (now : Database) : Stage → Prop
  | .collecting taken =>
    now = db ∧ taken = (rows.take taken.length).map (·.records db.dictionaries) ∧
      ∀ row ∈ rows.take taken.length, ¬row.Fails db.dictionaries
  | .inserting left =>
    (∀ row ∈ rows, ¬row.Fails db.dictionaries) ∧
      ∃ inserted, inserted ++ left = rows.flatMap (·.records db.dictionaries) ∧
        now = db.insertAll inserted
  | .failed e => now = db ∧ Batch.FirstFailure db.dictionaries rows e

/-- A state that adding `rows` to `db` can reach. -/
structure Sound (db : Database) (rows : List Row) (s : Intake) : Prop where
  length_eq : s.results.length = rows.length
  dictionaries_eq : s.db.dictionaries = db.dictionaries
  results_eq : ∀ {i : Nat} {result : Except RowError (List Record)},
    s.results[i]? = some (some result) →
      ∃ row, rows[i]? = some row ∧ (row.read db.dictionaries).1 = result
  fits : s.stage.Fits db rows s.db

theorem Sound.read (h : Sound db rows s) {i : Nat} {row : Row} (hrow : rows[i]? = some row) :
    Sound db rows
      { s with results := s.results.set i (some (row.read s.db.dictionaries).1) } where
  length_eq := by rw [List.length_set, h.length_eq]
  dictionaries_eq := h.dictionaries_eq
  results_eq {j result} hresult := by
    by_cases hij : i = j
    · subst hij
      refine ⟨row, hrow, ?_⟩
      rw [h.dictionaries_eq, List.getElem?_set_self'] at hresult
      have hset : (∃ old, s.results[i]? = some old) ∧ (row.read db.dictionaries).1 = result := by
        simpa using hresult
      exact hset.2
    · rw [List.getElem?_set_ne hij] at hresult
      exact h.results_eq hresult
  fits := h.fits

theorem Sound.take (h : Sound db rows s) {taken : List (List Record)} {records : List Record}
    (hstage : s.stage = .collecting taken)
    (hresult : s.results[taken.length]? = some (some (.ok records))) :
    Sound db rows { s with stage := .collecting (taken ++ [records]) } where
  length_eq := h.length_eq
  dictionaries_eq := h.dictionaries_eq
  results_eq := h.results_eq
  fits := by
    have hfits := h.fits
    rw [hstage] at hfits
    obtain ⟨hdb, htaken, hread⟩ := hfits
    obtain ⟨row, hrow, hok⟩ := h.results_eq hresult
    have htake : rows.take (taken.length + 1) = rows.take taken.length ++ [row] := by
      rw [List.take_add_one, hrow, Option.toList_some]
    refine ⟨hdb, ?_, ?_⟩
    · rw [List.length_append, List.length_singleton, htake, List.map_append, ← htaken,
        List.map_singleton, Row.records_eq hok]
    · rw [List.length_append, List.length_singleton, htake]
      simp only [List.mem_append, List.mem_singleton]
      rintro other (hother | rfl)
      · exact hread other hother
      · exact Row.not_fails_of_read hok

theorem Sound.refuse (h : Sound db rows s) {taken : List (List Record)} {row : Row}
    {cause : RowError} (hstage : s.stage = .collecting taken)
    (hrow : rows[taken.length]? = some row)
    (hresult : s.results[taken.length]? = some (some (.error cause))) :
    Sound db rows { s with stage := .failed ⟨taken.length, row, cause⟩ } where
  length_eq := h.length_eq
  dictionaries_eq := h.dictionaries_eq
  results_eq := h.results_eq
  fits := by
    have hfits := h.fits
    rw [hstage] at hfits
    obtain ⟨hdb, -, hread⟩ := hfits
    refine ⟨hdb, hrow, ?_, ?_⟩
    · obtain ⟨other, hother, hcause⟩ := h.results_eq hresult
      obtain rfl : row = other := Option.some.inj (hrow.symm.trans hother)
      exact hcause
    · intro i hi other hother
      refine hread other (List.mem_of_getElem? (i := i) ?_)
      rw [List.getElem?_take_of_lt hi, hother]

theorem Sound.turn (h : Sound db rows s) {taken : List (List Record)}
    (hstage : s.stage = .collecting taken) (hall : taken.length = rows.length) :
    Sound db rows { s with stage := .inserting taken.flatten } where
  length_eq := h.length_eq
  dictionaries_eq := h.dictionaries_eq
  results_eq := h.results_eq
  fits := by
    have hfits := h.fits
    rw [hstage] at hfits
    obtain ⟨hdb, htaken, hread⟩ := hfits
    rw [hall, List.take_length] at htaken hread
    refine ⟨hread, [], ?_, hdb⟩
    rw [htaken, List.nil_append, List.flatMap_def]

theorem Sound.insert (h : Sound db rows s) {r : Record} {left : List Record}
    (hstage : s.stage = .inserting (r :: left)) :
    Sound db rows { s with db := s.db.insert r, stage := .inserting left } where
  length_eq := h.length_eq
  dictionaries_eq := h.dictionaries_eq
  results_eq := h.results_eq
  fits := by
    have hfits := h.fits
    rw [hstage] at hfits
    obtain ⟨hread, inserted, hrecords, hdb⟩ := hfits
    refine ⟨hread, inserted ++ [r], by simpa using hrecords, ?_⟩
    simp [hdb, Database.insertAll]

theorem Sound.step (h : Sound db rows s) (hstep : Step jobs rows s t) : Sound db rows t := by
  cases hstep with
  | read hrow => exact h.read hrow
  | take hstage hresult => exact h.take hstage hresult
  | refuse hstage hrow hresult => exact h.refuse hstage hrow hresult
  | turn hstage hall => exact h.turn hstage hall
  | insert hstage => exact h.insert hstage

theorem Sound.run (h : Sound db rows s) (hrun : Relation.ReflTransGen (Step jobs rows) s t) :
    Sound db rows t := by
  induction hrun with
  | refl => exact h
  | tail _ hstep ih => exact ih.step hstep

/-! ### Where a run ends -/

/-- What is left to do, the stages one after the other. -/
def Stage.left (rows : Nat) : Stage → Nat × Nat
  | .collecting taken => (2, rows - taken.length)
  | .inserting left => (1, left.length)
  | .failed _ => (0, 0)

end Intake

namespace Database

theorem addRows_fst [Capacity] (db : Database) (rows : List Row) :
    (db.addRows rows).1 = (Batch.read db.dictionaries rows).1.map db.insertAll := rfl

theorem addRows_eq_error_iff [Capacity] {db : Database} {rows : List Row} {e : BatchError} :
    (db.addRows rows).1 = .error e ↔ Batch.FirstFailure db.dictionaries rows e := by
  rw [addRows_fst, ← Batch.read_eq_error_iff]
  cases (Batch.read db.dictionaries rows).1 <;> simp [Except.map]

end Database

namespace Database

end Database

end InstrTable
