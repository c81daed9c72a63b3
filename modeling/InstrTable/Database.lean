import InstrTable.Batch
import InstrTable.Position

/-!
The instruction database. Records are grouped by name; a group keeps the order in
which its records came, and listings go through the groups in the order of names.
-/

namespace InstrTable

/-- Counts over the records of a database, kept as they come. -/
structure Stats where
  records : Nat := 0
  groups : Nat := 0
  /-- Problems that the records had when they came. -/
  invalid : Nat := 0
  /-- Records of each prefix class. -/
  prefixes : Keyed Nat := .empty
  deriving DecidableEq, Repr

structure Database where
  dictionaries : Dictionaries
  stats : Stats := {}
  /-- What a name is an alias of. -/
  aliases : Keyed String := .empty
  groups : Keyed (List Record) := .empty
  /-- The sorted names, if they were asked for since the last new name. -/
  index : Option (List String) := none
  deriving DecidableEq, Repr

namespace Stats

/-- Counts one more record. -/
def add (s : Stats) (r : Record) (isNewGroup : Bool) : Stats where
  records := s.records + 1
  groups := s.groups + isNewGroup.toNat
  invalid := s.invalid + r.invalid
  prefixes := match r.prefixClass? with
    | none => s.prefixes
    | some p => s.prefixes.insert p.name ((s.prefixes.get? p.name).getD 0 + 1)

end Stats

namespace Database

def group (db : Database) (name : String) : List Record := (db.groups.get? name).getD []

def contains (db : Database) (name : String) : Bool := db.groups.contains name

/-- Adds a record to the group of its name. Only a new name makes the index out of date. -/
def insert (db : Database) (r : Record) : Database :=
  { db with
    stats := db.stats.add r (!db.contains r.name)
    aliases := if r.aliasOf = "" then db.aliases else db.aliases.insert r.name r.aliasOf
    groups := db.groups.insert r.name (db.group r.name ++ [r])
    index := if db.contains r.name then db.index else none }

def insertAll (db : Database) (records : List Record) : Database := records.foldl insert db

/-- Adds the records of a batch, all of them or none. The messages of the reading
are listed in either case. -/
def addRows [Capacity] (db : Database) (rows : List Row) :
    Except BatchError Database × List String :=
  let (records, messages) := Batch.read db.dictionaries rows
  (records.map db.insertAll, messages)

/-- The names of all groups in order. -/
def names (db : Database) : List String :=
  db.index.getD (db.groups.keys.mergeSort fun a b => decide (a ≤ b))

/-- The same database with its index up to date, as listings leave it. -/
def indexed (db : Database) : Database := { db with index := some db.names }

def sortedGroups (db : Database) : List (String × List Record) :=
  db.names.map fun name => (name, db.group name)

def records (db : Database) : List Record := db.names.flatMap db.group

/-- Which records are asked for. -/
inductive Selection where
  | all
  | name (n : String)
  | names (ns : List String)
  deriving DecidableEq, Repr

/-- A property that records may be limited to. -/
inductive Filter where
  | prefixClass (name : Option String)
  | arch (name : Option String)
  deriving DecidableEq, Repr

namespace Filter

def accepts : Filter → Record → Bool
  | .prefixClass name, r => r.prefixClass?.map PrefixClass.name = name
  | .arch name, r => some r.arch = name

end Filter

def query (db : Database) : Selection → List Record
  | .all => db.records
  | .name n => db.group n
  | .names ns => ns.flatMap db.group

/-- The same database as a query leaves it. -/
def afterQuery (db : Database) : Selection → Database
  | .all => db.indexed
  | _ => db

/-- The places of the selected records: their names, and their numbers in the groups. -/
def places (db : Database) : Selection → List (String × Nat)
  | .all => db.names.flatMap (placesOf db)
  | .name n => placesOf db n
  | .names ns => ns.flatMap (placesOf db)
where
  placesOf (db : Database) (name : String) : List (String × Nat) :=
    (List.range (db.group name).length).map fun i => (name, i)

/-- Reports a problem of a selected record, and says with which message. The
counts of the database stay as they are. -/
def report (db : Database) (selection : Selection) (i : Int) (text : String) :
    Except PositionError (Database × String) :=
  let places := db.places selection
  match (place? places.length i).bind (places[·]?) with
  | none => .error .outsideList
  | some (name, k) =>
    let note := Diagnostic.note text
    let change (r : Record) : Record := { r with diagnostics := r.diagnostics.report note }
    let group := db.group name
    let owner := (group[k]?.map (·.diagnostics.owner)).getD ""
    .ok ({ db with groups := db.groups.insert name (group.modify k change) },
      Diagnostics.ownedBy owner text)

/-- The extensions that any variant of a name requires, sorted. -/
def extensions (db : Database) (name : String) : List String :=
  ((db.group name).flatMap (·.metadata.extensions)).eraseDups.mergeSort fun a b => decide (a ≤ b)

/-- The number of variants of a name that have an attribute, and the given value of
it if there is one. -/
def countAttribute (db : Database) (name key : String) (value : Option Document) : Nat :=
  (db.group name).countP fun r =>
    match r.metadata.attributes.get? key, value with
    | none, _ => false
    | some _, none => true
    | some v, some d => v.equals d

/-- Every pair of two items, the earlier one first. -/
def pairs {α : Type} : List α → List (α × α)
  | [] => []
  | a :: as => as.map (fun b => (a, b)) ++ pairs as

/-- The one of two records that has the given prefix class. -/
def oneOf (p : PrefixClass) (a b : Record) : Option Record :=
  if a.prefixClass? = some p then some a
  else if b.prefixClass? = some p then some b
  else none

/-- The VEX and the EVEX record of a pair that has both, with the same operands and
opcode byte, if they differ in vector length or width. -/
def discrepancy? (a b : Record) : Option (Record × Record) :=
  if a.signature = b.signature then
    match oneOf .vex a b, oneOf .evex a b with
    | some vex, some evex =>
      match vex.opcode.bytes?, evex.opcode.bytes? with
      | some v, some e =>
        if v.opcode = e.opcode ∧ (v.width ≠ e.width ∨ v.vectorLength ≠ e.vectorLength) then
          some (vex, evex)
        else none
      | _, _ => none
    | _, _ => none
  else none

/-- All such records, under their names. -/
def discrepancies (db : Database) : List (String × Record × Record) :=
  db.sortedGroups.flatMap fun (name, group) =>
    (pairs group).filterMap fun (a, b) =>
      (discrepancy? a b).map fun (vex, evex) => (name, vex, evex)

def tableText (db : Database) : String :=
  String.join (db.records.map fun r => r.tableLine ++ "\n")

end Database

end InstrTable
