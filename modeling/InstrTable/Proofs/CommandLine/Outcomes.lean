import InstrTable.CommandLine
import InstrTable.Proofs.Database.Intake
import InstrTable.Proofs.Dictionaries.Reading

/-!
How commands end. What is expected of a table may fail, and is then reported: its file may be
missing, its document may be found wrong, its rows may be written wrongly. At anything else a
command stops without an outcome.
-/

namespace InstrTable

namespace Table

variable {env : Environment} {path : String} {d : Document}

theorem load_of_failure {f : Failure} (h : env.document path = .error f) :
    load env path = .error (.file path f) := by
  rw [load, dictionariesAt, readAt, h]
  rfl

theorem load_of_invalid {message : String} (h : env.document path = .ok d)
    (hmessage : env.validate d = some message) :
    load env path = .error (.table (.invalid path message)) := by
  rw [load, dictionariesAt, readAt, h]
  simp only [Except.mapError, bind, Except.bind, Dictionaries.ofDocument, hmessage]

theorem exists_load (h : env.document path = .ok d) (hnone : env.validate d = none)
    (haccepts : schema.Accepts d) : ∃ table, load env path = .ok table := by
  obtain ⟨D, hread, -⟩ := Dictionaries.exists_read haccepts
  obtain ⟨entries, hentries, -⟩ := exists_entries haccepts
  refine ⟨⟨D, entries⟩, ?_⟩
  simp [load, dictionariesAt, entriesAt, readAt, h, Dictionaries.ofDocument, entriesOf, hnone,
    hread, hentries, Except.mapError, bind, Except.bind, pure, Except.pure]

/-- A table that is not as commands expect it. Its text is no document, or cannot be read for a
reason of its own, or the first row that cannot be read is not written wrongly. -/
inductive IsUnexpected [Capacity] (env : Environment) (path : String) : Prop where
  | malformed {message : String} : env.document path = .error (.malformed message) →
    IsUnexpected env path
  | other {message : String} : env.document path = .error (.other message) →
    IsUnexpected env path
  | row {table : Table} {e : BatchError} : load env path = .ok table →
    Batch.FirstFailure table.dictionaries (table.entries.map .stored) e →
    e.cause.isSyntax = false → IsUnexpected env path

end Table

namespace CommandLine

/-- An end with a message, and with status 0 or 1. -/
def Outcome.IsTold (o : Outcome) : Prop := (o.status = 0 ∨ o.status = 1) ∧ o.output ≠ ""

theorem lines_ne_empty {ls : List String} (h : ls ≠ []) : lines ls ≠ "" := by
  obtain ⟨l, ls, rfl⟩ := List.exists_cons_of_ne_nil h
  intro hempty
  have := congrArg String.toList hempty
  simp [lines] at this

theorem isTold_lines {status : Nat} {l : String} {ls : List String} {warnings : String}
    (h : status = 0 ∨ status = 1) : Outcome.IsTold ⟨status, lines (l :: ls), warnings⟩ :=
  ⟨h, lines_ne_empty (List.cons_ne_nil l ls)⟩

/-- What is reported is an outcome, and any other error is passed on. -/
theorem ite_eq_error_iff {ε α : Type} (reported : ε → Bool) (e' : ε) {o : α} {e : ε} :
    (if reported e' then Except.ok o else .error e') = .error e ↔
      e' = e ∧ reported e = false := by
  constructor
  · intro h
    split at h
    · contradiction
    · next hnot =>
      obtain rfl := Except.error.inj h
      exact ⟨rfl, by simpa using hnot⟩
  · rintro ⟨rfl, hnot⟩
    simp [hnot]

theorem isTold_query (names : List String) (db : Database) : (query names db).IsTold := by
  unfold query
  split
  · exact isTold_lines (.inr rfl)
  · next hne =>
    obtain ⟨r, rs, hrs⟩ := List.exists_cons_of_ne_nil hne
    rw [hrs, List.flatMap_cons]
    exact isTold_lines (.inl rfl)

theorem isTold_list (db : Database) : (list db).IsTold := by
  refine ⟨.inl rfl, fun hempty => ?_⟩
  obtain ⟨-, hlines⟩ := String.append_eq_empty_iff.mp hempty
  exact lines_ne_empty (List.cons_ne_nil _ _) hlines

theorem isTold_check (db : Database) : (check db).IsTold :=
  ⟨.inl rfl, lines_ne_empty (by simp)⟩

namespace Command

variable {clustering : Clustering} {name : String} {arguments : List String}

theorem ofArguments_cons (h : name.toList.head? ≠ some '-') :
    ofArguments clustering (name :: arguments) = ofName clustering name arguments := by
  have hne : name ≠ "--" := by
    rintro rfl
    contradiction
  simp [ofArguments, Usage.argument, hne, h]

/-- The compile command hands on what it has read. -/
theorem ofArguments_parse {c : Compilation}
    (hc : Compilation.ofCommandArguments clustering arguments = .ok c) :
    ofArguments clustering ("parse" :: arguments) =
      (Compilation.ofArguments clustering c.arguments).map .compile := by
  rw [ofArguments_cons (by decide), ofName, hc]
  rfl

end Command

section

variable [Capacity] {env : Environment}

/-! ### Databases of tables -/

section

variable {path : String} {table : Table} {e : CommandError}

theorem databaseAt_of_load_error {e : LoadError} (h : Table.load env path = .error e) :
    databaseAt env path = .error (.load e) := by
  rw [databaseAt, h]
  rfl

theorem databaseAt_of_load (h : Table.load env path = .ok table) :
    databaseAt env path = (({ dictionaries := table.dictionaries } : Database).addRows
      (table.entries.map .stored)).1.mapError .batch := by
  rw [databaseAt, h]
  rfl

/-- A table that is not as expected is the only reason that is not reported. -/
theorem unreported_databaseAt_iff
    (hvalidate : ∀ d, env.validate d = none → Table.schema.Accepts d) :
    (∃ e, databaseAt env path = .error e ∧ e.isReported = false) ↔
      Table.IsUnexpected env path := by
  constructor
  · rintro ⟨e, he, hreported⟩
    cases hload : Table.load env path with
    | ok table =>
        rw [databaseAt_of_load hload, mapError_eq_error_iff] at he
        obtain ⟨e, hadd, rfl⟩ := he
        exact .row hload (Database.addRows_eq_error_iff.mp hadd) hreported
    | error e' =>
        rw [databaseAt_of_load_error hload] at he
        obtain rfl := Except.error.inj he
        cases hdocument : env.document path with
        | error f =>
            obtain rfl := Except.error.inj (hload.symm.trans (Table.load_of_failure hdocument))
            cases f with
            | missing => contradiction
            | value => contradiction
            | malformed => exact .malformed hdocument
            | other => exact .other hdocument
        | ok d =>
            cases hfound : env.validate d with
            | some message =>
                obtain rfl :=
                  Except.error.inj (hload.symm.trans (Table.load_of_invalid hdocument hfound))
                contradiction
            | none =>
                obtain ⟨table, htable⟩ := Table.exists_load hdocument hfound (hvalidate d hfound)
                simp [hload] at htable
  · rintro (hdocument | hdocument | ⟨hload, hfirst, hsyntax⟩)
    · exact ⟨_, databaseAt_of_load_error (Table.load_of_failure hdocument), rfl⟩
    · exact ⟨_, databaseAt_of_load_error (Table.load_of_failure hdocument), rfl⟩
    · rw [databaseAt_of_load hload, Database.addRows_eq_error_iff.mpr hfirst]
      exact ⟨_, rfl, hsyntax⟩

end

/-! ### Commands -/

namespace Compilation

variable {c : Compilation} {o : Outcome} {e : CommandError}

theorem isTold_of_runTest (h : runTest env = .ok o) : o.IsTold := by
  unfold runTest at h
  split at h
  · exact Except.ok.inj h ▸ isTold_lines (.inl rfl)
  · split at h
    · exact Except.ok.inj h ▸ isTold_lines (.inr rfl)
    · contradiction

theorem runTest_eq_error_iff :
    runTest env = .error e ↔ testDatabase env = .error e ∧ e.isSyntax = false := by
  unfold runTest
  cases testDatabase env with
  | ok db => simp
  | error e' =>
      rw [Except.error.injEq]
      exact ite_eq_error_iff CommandError.isSyntax e'

theorem isTold_of_runTable {path : String} {table : Table} (h : c.runTable path table = .ok o) :
    o.IsTold := by
  unfold runTable at h
  dsimp only at h
  split at h
  · split at h
    · exact Except.ok.inj h ▸ isTold_lines (.inr rfl)
    · contradiction
  · obtain rfl := Except.ok.inj h
    refine isTold_lines ?_
    split
    · exact .inr rfl
    · exact .inl rfl

theorem runTable_eq_error_iff {path : String} {table : Table} :
    c.runTable path table = .error e ↔
      (({ dictionaries := table.dictionaries } : Database).addRows
        (table.entries.map .stored)).1.mapError .batch = .error e ∧ e.isReported = false := by
  unfold runTable
  dsimp only
  generalize ({ dictionaries := table.dictionaries } : Database).addRows
    (table.entries.map .stored) = added
  rcases added with ⟨e' | db, messages⟩
  · rw [Except.mapError, Except.error.injEq]
    exact ite_eq_error_iff CommandError.isReported (.batch e')
  · simp [Except.mapError]

theorem isTold_of_run (h : c.run env = .ok o) : o.IsTold := by
  unfold run at h
  split at h
  · exact isTold_of_runTest h
  · dsimp only at h
    split at h
    · exact Except.ok.inj h ▸ isTold_lines (.inr rfl)
    · split at h
      · exact Except.ok.inj h ▸ isTold_lines (.inr rfl)
      · contradiction
    · exact isTold_of_runTable h

theorem run_eq_error_iff (htest : c.test = false) :
    c.run env = .error e ↔
      databaseAt env (env.pathOf c.file c.target) = .error e ∧ e.isReported = false := by
  unfold run
  simp only [htest, Bool.false_eq_true, if_false]
  cases hload : Table.load env (env.pathOf c.file c.target) with
  | ok table => rw [databaseAt_of_load hload, runTable_eq_error_iff]
  | error e' =>
      rw [databaseAt_of_load_error hload, Except.error.injEq]
      split
      · next heq =>
        obtain rfl := Except.error.inj heq
        refine iff_of_false (by simp) ?_
        rintro ⟨rfl, hnot⟩
        contradiction
      · next heq =>
        obtain rfl := Except.error.inj heq
        exact ite_eq_error_iff CommandError.isReported (.load e')
      · next heq => contradiction

end Compilation

namespace TableChoice

variable {t : TableChoice} {f : Database → Outcome}

theorem isTold_of_withDatabase (hf : ∀ db, (f db).IsTold) {o : Outcome}
    (h : t.withDatabase env f = .ok o) : o.IsTold := by
  unfold withDatabase at h
  split at h
  · split at h
    · exact Except.ok.inj h ▸ isTold_lines (.inr rfl)
    · contradiction
  · exact Except.ok.inj h ▸ hf _

theorem withDatabase_eq_error_iff {e : CommandError} :
    t.withDatabase env f = .error e ↔
      databaseAt env (env.pathOf t.config t.target) = .error e ∧ e.isReported = false := by
  unfold withDatabase
  cases databaseAt env (env.pathOf t.config t.target) with
  | ok db => simp
  | error e' =>
      rw [Except.error.injEq]
      exact ite_eq_error_iff CommandError.isReported e'

end TableChoice

theorem isTold_test : (test env).IsTold := by
  unfold test
  split
  · exact isTold_lines (.inl rfl)
  · exact isTold_lines (.inr rfl)

namespace Command

variable {command : Command}

/-- A command that stops without an outcome: at its table, or as the test of the compiler. -/
inductive Stops (env : Environment) : Command → Prop where
  | table {command : Command} {path : String} : command.path? env = some path →
    Table.IsUnexpected env path → Stops env command
  | test {c : Compilation} {e : CommandError} : c.test = true → testDatabase env = .error e →
    e.isSyntax = false → Stops env (.compile c)

theorem isTold_of_run {o : Outcome} (h : command.run env = .ok o) : o.IsTold := by
  cases command with
  | overview => exact Except.ok.inj h ▸ isTold_lines (.inl rfl)
  | compile c => exact Compilation.isTold_of_run h
  | query names t => exact TableChoice.isTold_of_withDatabase (isTold_query names) h
  | list t => exact TableChoice.isTold_of_withDatabase isTold_list h
  | check t => exact TableChoice.isTold_of_withDatabase isTold_check h
  | test => exact Except.ok.inj h ▸ isTold_test
  | version => exact Except.ok.inj h ▸ isTold_lines (.inl rfl)

theorem run_eq_error_iff {e : CommandError} :
    command.run env = .error e ↔
      (∃ path, command.path? env = some path ∧ databaseAt env path = .error e ∧
        e.isReported = false) ∨
      ∃ c, command = .compile c ∧ c.test = true ∧ testDatabase env = .error e ∧
        e.isSyntax = false := by
  cases command with
  | overview => simp [run, path?]
  | compile c =>
      cases htest : c.test with
      | true => simp [run, path?, Compilation.run, Compilation.runTest_eq_error_iff, htest]
      | false => simp [run, path?, Compilation.run_eq_error_iff htest, htest]
  | query names t => simp [run, path?, TableChoice.withDatabase_eq_error_iff]
  | list t => simp [run, path?, TableChoice.withDatabase_eq_error_iff]
  | check t => simp [run, path?, TableChoice.withDatabase_eq_error_iff]
  | test => simp [run, path?]
  | version => simp [run, path?]

theorem exists_run_eq_error_iff
    (hvalidate : ∀ d, env.validate d = none → Table.schema.Accepts d) :
    (∃ e, command.run env = .error e) ↔ command.Stops env := by
  simp only [run_eq_error_iff]
  constructor
  · rintro ⟨e, ⟨path, hpath, he⟩ | ⟨c, rfl, htest, he, hsyntax⟩⟩
    · exact .table hpath ((unreported_databaseAt_iff hvalidate).mp ⟨e, he⟩)
    · exact .test htest he hsyntax
  · rintro (⟨hpath, hunexpected⟩ | ⟨htest, he, hsyntax⟩)
    · obtain ⟨e, he⟩ := (unreported_databaseAt_iff hvalidate).mpr hunexpected
      exact ⟨e, .inl ⟨_, hpath, he⟩⟩
    · exact ⟨_, .inr ⟨_, rfl, htest, he, hsyntax⟩⟩

/-- A command comes to an end or stops. -/
theorem exists_run_iff (hvalidate : ∀ d, env.validate d = none → Table.schema.Accepts d) :
    (∃ o, command.run env = .ok o ∧ o.IsTold) ↔ ¬command.Stops env := by
  rw [← exists_run_eq_error_iff hvalidate]
  cases hrun : command.run env with
  | error e => simp
  | ok o => simpa using isTold_of_run hrun

end Command

variable {clustering : Clustering}

theorem exists_run_iff (hvalidate : ∀ d, env.validate d = none → Table.schema.Accepts d)
    {arguments : List String} :
    (∃ o, run env clustering arguments = .ok o ∧ o.IsTold) ↔
      Command.ofArguments clustering arguments ≠ .error .misuse ∧
        ∀ command, Command.ofArguments clustering arguments = .ok command →
          ¬command.Stops env := by
  unfold run
  cases Command.ofArguments clustering arguments with
  | error e =>
      cases e with
      | misuse => simp [usageOutcome, Outcome.IsTold]
      | help =>
          have htold : (usageOutcome .help).IsTold := isTold_lines (.inl rfl)
          simpa using htold
  | ok command => simp [Command.exists_run_iff hvalidate]

/-- A command line that reads a table and that its command accepts. -/
inductive Accepts (clustering : Clustering) : String → List String → Prop where
  | compile {arguments : List String} {c : Compilation} :
    Compilation.ofCommandArguments clustering arguments = .ok c →
      Accepts clustering "parse" arguments
  | listing {name : String} {arguments : List String} {command : Command} :
    name ∈ ["query", "list", "check"] → Command.ofName clustering name arguments = .ok command →
      Accepts clustering name arguments

/-- Suppose that a validator finds something wrong with every document that does not have the shape
of a table. Then a command line that is accepted comes to an end with a message, and with status 0
or 1, unless the compiler refuses what the compile command hands on to it, or the table is not as
expected. -/
theorem exists_run_iff_of_accepts
    (hvalidate : ∀ d, env.validate d = none → Table.schema.Accepts d)
    {name : String} {arguments : List String} (h : Accepts clustering name arguments) :
    (∃ o, run env clustering (name :: arguments) = .ok o ∧ o.IsTold) ↔
      (∀ c, name = "parse" → Compilation.ofCommandArguments clustering arguments = .ok c →
        Compilation.ofArguments clustering c.arguments ≠ .error .misuse) ∧
      ∀ command, Command.ofArguments clustering (name :: arguments) = .ok command →
        ¬command.Stops env := by
  rw [exists_run_iff hvalidate]
  refine and_congr_left fun _ => ?_
  cases h with
  | @compile arguments c hc =>
      have hmisuse : Command.ofArguments clustering ("parse" :: arguments) = .error .misuse ↔
          Compilation.ofArguments clustering c.arguments = .error .misuse := by
        rw [Command.ofArguments_parse hc]
        cases Compilation.ofArguments clustering c.arguments <;> simp [Except.map]
      simp [hmisuse, hc]
  | @listing _ _ command hname hcommand =>
      have hne : name.toList.head? ≠ some '-' ∧ name ≠ "parse" := by
        simp only [List.mem_cons, List.not_mem_nil, or_false] at hname
        obtain rfl | rfl | rfl := hname <;> decide
      simp [Command.ofArguments_cons hne.1, hne.2, hcommand]

end

theorem exists_run_missing :
    let env := Files.environment (fun _ => none) "data"
    Accepts .dropsEquals "parse" ["-v", "missing.yaml"] ∧
      ∃ o, run env .dropsEquals ["parse", "-v", "missing.yaml"] = .ok o ∧ o.IsTold := by
  intro env
  let c : Compilation := { file := "missing.yaml", verbose := true }
  have hread : Compilation.ofCommandArguments .dropsEquals ["-v", "missing.yaml"] = .ok c := by
    decide +kernel
  have hcommand : Command.ofArguments .dropsEquals ["parse", "-v", "missing.yaml"] =
      .ok (.compile c) := by
    decide +kernel
  have hdocument : env.document "missing.yaml" = .error .missing := by rfl
  have hvalidate : ∀ d, env.validate d = none → Table.schema.Accepts d :=
    fun d => (Table.validator_decides d).mp
  have haccepts : Accepts .dropsEquals "parse" ["-v", "missing.yaml"] := .compile hread
  refine ⟨haccepts, (exists_run_iff_of_accepts hvalidate haccepts).mpr ⟨?_, ?_⟩⟩
  · rintro c' - hc'
    obtain rfl := Except.ok.inj (hread.symm.trans hc')
    decide +kernel
  · rintro command heq hstops
    obtain rfl := Except.ok.inj (hcommand.symm.trans heq)
    cases hstops with
    | test htest => contradiction
    | table hpath hunexpected =>
        have hshown : (Command.compile c).path? env = some "missing.yaml" := by decide +kernel
        obtain rfl := Option.some.inj (hshown.symm.trans hpath)
        cases hunexpected with
        | malformed h => simp [hdocument] at h
        | other h => simp [hdocument] at h
        | row hload => simp [Table.load_of_failure hdocument] at hload

example : run (Files.environment (fun _ => none) "data") .dropsEquals ["parse", "--", "--foo"] =
    .ok ⟨2, "", ""⟩ := by
  decide +kernel

/-- A text that is no document is not expected. -/
theorem not_forall_exists_run :
    ¬∀ (env : Environment) (clustering : Clustering) (name : String) (arguments : List String),
      (∀ d, env.validate d = none → Table.schema.Accepts d) → Accepts clustering name arguments →
        ∃ o, run env clustering (name :: arguments) = .ok o ∧ o.IsTold := by
  intro hall
  let env := Files.environment (.ofList [("broken.yaml", "[")]) "data"
  have haccepts : Accepts .dropsEquals "list" ["-c", "broken.yaml"] :=
    .listing (by decide) (show Command.ofName .dropsEquals "list" ["-c", "broken.yaml"] =
      .ok (.list { config := "broken.yaml" }) by decide +kernel)
  have hrun : ∃ e, run env .dropsEquals ["list", "-c", "broken.yaml"] = .error e :=
    ⟨.load (.file "broken.yaml" (.malformed Document.ReadError.malformed.message)), by
      decide +kernel⟩
  obtain ⟨o, ho, -⟩ := hall env _ _ _ (fun d => (Table.validator_decides d).mp) haccepts
  obtain ⟨e, he⟩ := hrun
  rw [he] at ho
  contradiction

end CommandLine

end InstrTable
