import InstrTable.Batch

/-!
What reading a batch gives. A batch with a row that cannot be read is refused, and the
error is the first such row; any other batch gives the records of its rows in order.
-/

namespace InstrTable

namespace Row

variable [Capacity]

/-- Whether a row cannot be read. -/
def Fails (d : Dictionaries) (row : Row) : Prop := ∃ cause, (row.read d).1 = .error cause

/-- The records that a row gives. A row that cannot be read gives none. -/
def records (d : Dictionaries) (row : Row) : List Record :=
  match (row.read d).1 with
  | .ok rs => rs
  | .error _ => []

theorem not_fails_iff {d : Dictionaries} {row : Row} :
    ¬row.Fails d ↔ (row.read d).1 = .ok (row.records d) := by
  unfold Fails records
  cases (row.read d).1 with
  | ok => simp
  | error cause => simp

theorem not_fails_of_read {d : Dictionaries} {row : Row} {rs : List Record}
    (h : (row.read d).1 = .ok rs) : ¬row.Fails d := by
  rintro ⟨cause, hcause⟩
  rw [h] at hcause
  contradiction

theorem records_eq {d : Dictionaries} {row : Row} {rs : List Record}
    (h : (row.read d).1 = .ok rs) : row.records d = rs := by
  simp [records, h]

end Row

namespace Batch

theorem join_cons_error {result : Result} {cause : RowError} (h : result.1 = .error cause)
    (i : Nat) (row : Row) (rest : List (Row × Result)) :
    (join i ((row, result) :: rest)).1 = .error ⟨i, row, cause⟩ := by
  obtain ⟨outcome, messages⟩ := result
  obtain rfl : outcome = .error cause := h
  rfl

theorem join_cons_ok {result : Result} {records : List Record} (h : result.1 = .ok records)
    (i : Nat) (row : Row) (rest : List (Row × Result)) :
    (join i ((row, result) :: rest)).1 = (join (i + 1) rest).1.map (records ++ ·) := by
  obtain ⟨outcome, messages⟩ := result
  obtain rfl : outcome = .ok records := h
  rfl

variable [Capacity]

/-- The first row of a batch that cannot be read. -/
structure FirstFailure (d : Dictionaries) (rows : List Row) (e : BatchError) : Prop where
  row_eq : rows[e.index]? = some e.row
  cause_eq : (e.row.read d).1 = .error e.cause
  earlier : ∀ i < e.index, ∀ row, rows[i]? = some row → ¬row.Fails d

variable {d : Dictionaries} {rows : List Row} {e : BatchError}

theorem firstFailure_cons_zero {row : Row} {cause : RowError}
    (h : (row.read d).1 = .error cause) : FirstFailure d (row :: rows) ⟨0, row, cause⟩ :=
  ⟨rfl, h, fun i hi => absurd hi (Nat.not_lt_zero i)⟩

/-- A row that can be read makes the first failure one later. -/
theorem FirstFailure.cons (h : FirstFailure d rows e) {row : Row} (hrow : ¬row.Fails d) :
    FirstFailure d (row :: rows) ⟨e.index + 1, e.row, e.cause⟩ where
  row_eq := h.row_eq
  cause_eq := h.cause_eq
  earlier i hi other hother := by
    cases i with
    | zero =>
        obtain rfl : row = other := by simpa using hother
        exact hrow
    | succ i => exact h.earlier i (Nat.lt_of_succ_lt_succ hi) other hother

theorem exists_firstFailure (h : ∃ row ∈ rows, row.Fails d) : ∃ e, FirstFailure d rows e := by
  induction rows with
  | nil => simp at h
  | cons row rows ih =>
      by_cases hrow : row.Fails d
      · obtain ⟨cause, hcause⟩ := hrow
        exact ⟨⟨0, row, cause⟩, firstFailure_cons_zero hcause⟩
      · obtain ⟨e, he⟩ := ih (by simpa [hrow] using h)
        exact ⟨_, he.cons hrow⟩

/-- Joining stops at the first failure, whose number counts from `i`. -/
theorem join_of_firstFailure (h : FirstFailure d rows e) (i : Nat) :
    (join i (rows.map fun row => (row, row.read d))).1 =
      .error ⟨i + e.index, e.row, e.cause⟩ := by
  induction rows generalizing i e with
  | nil => simpa using h.row_eq
  | cons row rows ih =>
      obtain ⟨n, failing, cause⟩ := e
      cases n with
      | zero =>
          obtain rfl : row = failing := by simpa using h.row_eq
          exact join_cons_error h.cause_eq i row _
      | succ n =>
          have hrow : (row.read d).1 = .ok (row.records d) :=
            Row.not_fails_iff.mp (h.earlier 0 (Nat.succ_pos n) row rfl)
          have hrest : FirstFailure d rows ⟨n, failing, cause⟩ := by
            refine ⟨h.row_eq, h.cause_eq, fun j hj other hother => ?_⟩
            exact h.earlier (j + 1) (Nat.succ_lt_succ hj) other hother
          rw [List.map_cons, join_cons_ok hrow, ih hrest (i + 1), Nat.add_assoc, Nat.add_comm 1]
          rfl

theorem join_of_not_fails (h : ∀ row ∈ rows, ¬row.Fails d) (i : Nat) :
    (join i (rows.map fun row => (row, row.read d))).1 = .ok (rows.flatMap (·.records d)) := by
  induction rows generalizing i with
  | nil => rfl
  | cons row rows ih =>
      have hrow : (row.read d).1 = .ok (row.records d) :=
        Row.not_fails_iff.mp (h row List.mem_cons_self)
      have hrest : ∀ other ∈ rows, ¬other.Fails d := fun other hother =>
        h other (List.mem_cons_of_mem _ hother)
      rw [List.map_cons, join_cons_ok hrow, ih hrest (i + 1), List.flatMap_cons]
      rfl

/-- A batch is refused for its first failure alone. -/
theorem read_eq_error_iff : (read d rows).1 = .error e ↔ FirstFailure d rows e := by
  constructor
  · intro h
    by_cases hfails : ∃ row ∈ rows, row.Fails d
    · obtain ⟨first, hfirst⟩ := exists_firstFailure hfails
      have hread := join_of_firstFailure hfirst 0
      rw [Nat.zero_add] at hread
      obtain rfl : first = e := Except.error.inj (hread.symm.trans h)
      exact hfirst
    · have hall : ∀ row ∈ rows, ¬row.Fails d := by simpa using hfails
      have hread := join_of_not_fails hall 0
      exact absurd (hread.symm.trans h) (by simp)
  · intro h
    have hread := join_of_firstFailure h 0
    rwa [Nat.zero_add] at hread

theorem read_eq_ok_iff {records : List Record} :
    (read d rows).1 = .ok records ↔
      (∀ row ∈ rows, ¬row.Fails d) ∧ records = rows.flatMap (·.records d) := by
  constructor
  · intro h
    have hall : ∀ row ∈ rows, ¬row.Fails d := by
      intro row hrow hfails
      obtain ⟨first, hfirst⟩ := exists_firstFailure ⟨row, hrow, hfails⟩
      rw [read_eq_error_iff.mpr hfirst] at h
      contradiction
    have hread := join_of_not_fails hall 0
    exact ⟨hall, Except.ok.inj (h.symm.trans hread)⟩
  · rintro ⟨hall, rfl⟩
    exact join_of_not_fails hall 0

end Batch

end InstrTable
