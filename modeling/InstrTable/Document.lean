import InstrTable.Binary64
import InstrTable.Text.Quoted
import InstrTable.Timestamp

/-!
Structured documents: what a table file or a configuration holds.
-/

namespace InstrTable

/-- A value without parts. -/
inductive Scalar where
  | null
  | bool (b : Bool)
  | int (n : Int)
  | real (x : Binary64)
  | text (s : String)
  | time (t : Timestamp)
  | bytes (bs : List UInt8)
  deriving DecidableEq, Repr, Inhabited

namespace Scalar

/-- How a scalar is shown in a message. -/
def shown : Scalar → String
  | .null => "None"
  | .bool true => "True"
  | .bool false => "False"
  | .int n => toString n
  | .real x => x.shown
  | .text s => quotedText s
  | .time t => t.shown
  | .bytes bs => String.ofList (Text.quotedBytes bs)

/-- A scalar as text, which a text itself is. -/
def plain : Scalar → String
  | .text s => s
  | .time t => t.plain
  | s => s.shown

/-- The finite number that a scalar is. A truth value is one too. -/
def number? : Scalar → Option Rat
  | .int n => some n
  | .real x => x.toRat?
  | .bool b => some (if b then 1 else 0)
  | _ => none

/-- Whether two scalars are one key. Numbers are the same key however they are written. -/
def isSameKey (a b : Scalar) : Bool :=
  match a, b with
  | .time t, .time u => t.isSame u
  | .real .nan, _ => false
  | _, _ =>
    match a.number?, b.number? with
    | some m, some n => m = n
    | none, none => a = b
    | _, _ => false

end Scalar

inductive Document where
  | scalar (s : Scalar)
  | list (items : List Document)
  | map (entries : List (Scalar × Document))
  | set (members : List Scalar)
  | pair (first second : Document)
  /-- A part that holds itself. It is the same part wherever it has the same number. -/
  | knot (number : Nat) (d : Document)
  deriving Repr, Inhabited

namespace Document

def scalar? : Document → Option Scalar
  | .scalar s => some s
  | _ => none

def text? : Document → Option String
  | .scalar (.text s) => some s
  | _ => none

def list? : Document → Option (List Document)
  | .list items => some items
  | .knot _ d => d.list?
  | _ => none

def map? : Document → Option (List (Scalar × Document))
  | .map entries => some entries
  | .knot _ d => d.map?
  | _ => none

/-- Whether a document says nothing: it is null, false, zero, or empty. -/
def saysNothing : Document → Bool
  | .scalar (.text s) => s.isEmpty
  | .scalar (.bytes bs) => bs.isEmpty
  | .scalar .null => true
  | .scalar s => s.number? = some 0
  | .list items => items.isEmpty
  | .map entries => entries.isEmpty
  | .set members => members.isEmpty
  | .pair _ _ => false
  | .knot _ _ => false

/-- The value under a name of a map. -/
def field? (d : Document) (name : String) : Option Document :=
  d.map?.bind fun entries => entries.lookup (.text name)

/-- Gives a key of a map a value. A key that has one keeps its place and its form. -/
def put {α : Type} (key : Scalar) (value : α) : List (Scalar × α) → List (Scalar × α)
  | [] => [(key, value)]
  | e :: es => if e.1.isSameKey key then (e.1, value) :: es else e :: put key value es

/-- The texts of a list of texts. -/
def texts? (d : Document) : Option (List String) := d.list?.bind (·.mapM text?)

/-- The text under a key, or `fallback` when the key is absent. -/
def textOr? (d : Document) (key fallback : String) : Option String :=
  match d.field? key with
  | none => some fallback
  | some v => v.text?

/-- The items under a key, none when the key is absent. -/
def itemsOf? (d : Document) (key : String) : Option (List Document) :=
  match d.field? key with
  | none => some []
  | some v => v.list?

/-- How something with parts is shown, which are not. -/
def outline : Document → String
  | .list _ => "[...]"
  | .pair _ _ => "(...)"
  | .knot _ d => d.outline
  | _ => "\x7b...\x7d"

/-- How a set is shown. Its numbers stand in order. -/
def shownSet (members : List Scalar) : String :=
  let isSorted (a b : Scalar) : Bool :=
    match a.number?, b.number? with
    | some m, some n => m ≤ n
    | _, _ => true
  if members.isEmpty then "set()"
  else "\x7b" ++ ", ".intercalate ((members.mergeSort isSorted).map Scalar.shown) ++ "\x7d"

mutual

/-- How a document is shown inside of the parts with the numbers `around`. A part is
not shown inside of itself. -/
def shownIn (around : List Nat) : Document → String
  | .scalar s => s.shown
  | .list items => "[" ++ ", ".intercalate (shownItems around items) ++ "]"
  | .map entries => "\x7b" ++ ", ".intercalate (shownEntries around entries) ++ "\x7d"
  | .set members => shownSet members
  | .pair first second => "(" ++ shownIn around first ++ ", " ++ shownIn around second ++ ")"
  | .knot number d =>
    if around.contains number then d.outline else shownIn (number :: around) d

def shownItems (around : List Nat) : List Document → List String
  | [] => []
  | d :: ds => shownIn around d :: shownItems around ds

def shownEntries (around : List Nat) : List (Scalar × Document) → List String
  | [] => []
  | (key, d) :: es => (key.shown ++ ": " ++ shownIn around d) :: shownEntries around es

end

/-- How a document is shown in a message. -/
def shown (d : Document) : String := d.shownIn []

end Document

end InstrTable
