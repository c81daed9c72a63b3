import InstrTable.CommandLine.Command
import InstrTable.Database
import InstrTable.TableFile

/-!
What the commands print, and the status they end with.
-/

namespace InstrTable.CommandLine

/-- How a command ends. -/
structure Outcome where
  status : Nat
  output : String
  warnings : String := ""
  deriving DecidableEq, Repr

def lines (ls : List String) : String := String.join (ls.map (· ++ "\n"))

def overviewText : String := lines [
  "usage: isadb [-h] \x7bparse,query,list,check,test,version\x7d ...",
  "",
  "isadb - instruction table compiler for x86 and ARM",
  "",
  "positional arguments:",
  "  \x7bparse,query,list,check,test,version\x7d",
  "                        Command to execute",
  "    parse               Compile an instruction table and report diagnostics",
  "    query               Show all variants of one or more instructions",
  "    list                List every record in sorted name order",
  "    check               Report VEX/EVEX variants that differ only in L/W",
  "                        fields",
  "    test                Run built-in tests",
  "    version             Show version information",
  "",
  "options:",
  "  -h, --help            show this help message and exit",
  "",
  "Examples:",
  "  # Compile the builtin x86 table and report diagnostics",
  "  python -m isadb parse",
  "",
  "  # Compile a YAML table and show every record",
  "  python -m isadb parse my_table.yaml -v",
  "",
  "  # Show all variants of an instruction",
  "  python -m isadb query vaddpd",
  "",
  "  # List the builtin ARM table",
  "  python -m isadb list --target arm",
  "        "]

def versionText : String := "0.1.0"

/-- The table that the test compiles. -/
def testRows : List Row :=
  [.listed ["adc/adcs", "Rd, Rn, #ImmA", "A32", "Cond|0010101|S|Rn|Rd|ImmA:12",
    "Op=Adc APSR.NZCV=W"],
   .listed ["adcs", "Rx, Rm", "T16", "0100000101|Rm:3|Rx:3", "Op=Adc APSR.NZCV=W"]]

/-- Why a command stops. -/
inductive CommandError where
  | load (e : LoadError)
  | batch (e : BatchError)
  deriving DecidableEq, Repr

namespace CommandError

def message : CommandError → String
  | .load e => e.message
  | .batch e => e.message

/-- Whether commands report an error. -/
def isReported : CommandError → Bool
  | .load e => e.isReported
  | .batch e => e.cause.isSyntax

/-- Whether an error is a row that is written wrongly. -/
def isSyntax : CommandError → Bool
  | .load _ => false
  | .batch e => e.cause.isSyntax

end CommandError

variable [Capacity] (env : Environment)

/-- The database of the table at a path. -/
def databaseAt (path : String) : Except CommandError Database := do
  let table ← (Table.load env path).mapError .load
  let db : Database := { dictionaries := table.dictionaries }
  (db.addRows (table.entries.map .stored)).1.mapError .batch

def testDatabase : Except CommandError Database := do
  let dictionaries ← (Table.findDictionaries env "" "arm").mapError .load
  (({ dictionaries } : Database).addRows testRows).1.mapError .batch

/-- The lines that count the records of a database. -/
def summary (s : Stats) : List String :=
  let prefixes := s.prefixes.entries.mergeSort fun a b => decide (a.1 ≤ b.1)
  [s!"  - {s.records} records", s!"  - {s.groups} instruction groups"] ++
    (prefixes.map fun (name, n) =>
      let name := if name = "" then "legacy" else name
      s!"  - {n} {name} records") ++
    [s!"  - {s.invalid} diagnostics"]

namespace Compilation

def runTest : Except CommandError Outcome :=
  match testDatabase env with
  | .ok db =>
    let found := s!"Found {db.stats.records} records in {db.stats.groups} groups"
    .ok ⟨0, lines ["✓ Built-in test passed!", found], ""⟩
  | .error e =>
    if e.isSyntax then .ok ⟨1, lines [s!"✗ Test failed: {e.message}"], ""⟩ else .error e

/-- Compiles a table and says how it went. Warnings are given as they arise unless
the records, which hold them too, are shown. -/
def runTable (c : Compilation) (path : String) (table : Table) : Except CommandError Outcome :=
  let db : Database := { dictionaries := table.dictionaries }
  let (result, messages) := db.addRows (table.entries.map .stored)
  let warnings := if c.verbose then "" else InstrTable.warnings messages
  match result with
  | .error e =>
    if e.cause.isSyntax then .ok ⟨1, lines [s!"✗ Parse error: {e.message}"], warnings⟩
    else .error (.batch e)
  | .ok db =>
    let records :=
      if c.verbose then db.records.flatMap (fun r => "" :: r.describe) ++ [""] else []
    let hint := if c.verbose then [] else ["", "Use -v for detailed output"]
    .ok ⟨if c.strict && db.stats.invalid ≠ 0 then 1 else 0,
      lines ([s!"✓ Compiled {path} successfully!"] ++ records ++ summary db.stats ++ hint),
      warnings⟩

def run (c : Compilation) : Except CommandError Outcome :=
  if c.test then runTest env
  else
    let path := env.pathOf c.file c.target
    match Table.load env path with
    | .error (.file path .missing) => .ok ⟨1, lines [s!"Error: File '{path}' not found"], ""⟩
    | .error e =>
      if e.isReported then .ok ⟨1, lines [s!"Error: {e.message}"], ""⟩ else .error (.load e)
    | .ok table => c.runTable path table

end Compilation

namespace TableChoice

/-- Loads the chosen table into a database, and goes on with it. -/
def withDatabase (t : TableChoice) (f : Database → Outcome) : Except CommandError Outcome :=
  match databaseAt env (env.pathOf t.config t.target) with
  | .error e =>
    if e.isReported then .ok ⟨1, lines [s!"✗ Error: {e.message}"], ""⟩ else .error e
  | .ok db => .ok (f db)

end TableChoice

def query (names : List String) (db : Database) : Outcome :=
  match db.query (.names names) with
  | [] => ⟨1, lines ["✗ No instruction named " ++ " ".intercalate names], ""⟩
  | rs => ⟨0, lines (rs.flatMap Record.describe), ""⟩

def list (db : Database) : Outcome :=
  let s := db.stats
  ⟨0, db.tableText ++
    lines ["", s!"{s.records} records, {s.groups} groups, {s.invalid} diagnostics"], ""⟩

def check (db : Database) : Outcome :=
  let found := db.discrepancies
  ⟨0, lines (found.flatMap (fun (name, vex, evex) =>
      [s!"Instruction {name} differs:",
       s!"  {vex.signature}: {vex.opcodeText}",
       s!"  {evex.signature}: {evex.opcodeText}"]) ++
    [s!"✓ Checked {db.stats.groups} groups, {found.length} VEX/EVEX differences"]), ""⟩

def test : Outcome :=
  match testDatabase env with
  | .ok db =>
    let found := s!"Found {db.stats.records} records in {db.stats.groups} groups"
    ⟨0, lines [s!"✓ Built-in test passed! {found}"], ""⟩
  | .error e => ⟨1, lines [s!"✗ Test failed: {e.message}"], ""⟩

namespace Command

def run : Command → Except CommandError Outcome
  | .overview => .ok ⟨0, overviewText, ""⟩
  | .compile c => c.run env
  | .query names t => t.withDatabase env (CommandLine.query names)
  | .list t => t.withDatabase env CommandLine.list
  | .check t => t.withDatabase env CommandLine.check
  | .test => .ok (CommandLine.test env)
  | .version => .ok ⟨0, lines [s!"isadb version {versionText}"], ""⟩

/-- The path of the table that a command compiles or lists. -/
def path? : Command → Option String
  | .compile c => if c.test then none else some (env.pathOf c.file c.target)
  | .query _ t => some (env.pathOf t.config t.target)
  | .list t => some (env.pathOf t.config t.target)
  | .check t => some (env.pathOf t.config t.target)
  | _ => none

end Command

/-- How a misuse ends: a request for help is answered, anything else is an error. -/
def usageOutcome : UsageError → Outcome
  | .help => ⟨0, overviewText, ""⟩
  | .misuse => ⟨2, "", ""⟩

variable (clustering : Clustering)

/-- Runs the command that arguments ask for. It stops without an outcome at an error
that no command reports. -/
def run (arguments : List String) : Except CommandError Outcome :=
  match Command.ofArguments clustering arguments with
  | .error e => .ok (usageOutcome e)
  | .ok command => command.run env

/-- Runs the compiler alone with its own arguments. -/
def runCompiler (arguments : List String) : Except CommandError Outcome :=
  match Compilation.ofArguments clustering arguments with
  | .error e => .ok (usageOutcome e)
  | .ok c => c.run env

end InstrTable.CommandLine
