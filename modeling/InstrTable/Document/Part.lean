import InstrTable.Document.Node

/-!
What the nodes of a document stand for. A node with parts is begun where it is met and
looked into after all that was begun before it, so of two faults the one nearer to the
root is met first. A map takes over the entries of others before its own count.
-/

namespace InstrTable.Document

/-- What a node stands for: a scalar, or a part with its number. -/
inductive Value where
  | scalar (s : Scalar)
  | part (number : Nat)
  deriving Repr

/-- A part of a document that has parts itself. -/
inductive Part where
  | list (items : List Value)
  | map (entries : List (Scalar × Value))
  | set (members : List Scalar)
  | pair (first second : Value)
  deriving Repr

namespace Part

/-- A part that was begun: a node to look into, or a pair. -/
inductive Begun where
  | node (n : Nat)
  | pair (first second : Value)
  deriving Repr

/-- The nodes as they are now, what those stand for that were met, the parts that were
begun, in the order of their numbers, and how many parts of nodes are written. -/
structure Building where
  nodes : Array Node
  values : Array (Option Value)
  begun : Array Begun := #[]
  written : Nat

abbrev Build := StateT Building (Except ReadError)

namespace Build

def fail {α : Type} : Build α := fun _ => .error .malformed

def node (n : Nat) : Build Node := do
  match (← get).nodes[n]? with
  | some node => return node
  | none => fail

def setNode (n : Nat) (node : Node) : Build Unit :=
  modify fun b => { b with nodes := b.nodes.setIfInBounds n node }

def entries (n : Nat) : Build (List (Nat × Nat)) := do
  match ← node n with
  | .map _ es => return es
  | _ => fail

def tag (n : Nat) : Build Tag := do return (← node n).tag

/-- The first entry whose key has a tag, and the entries around it. -/
def cutAt (t : Tag) : List (Nat × Nat) → Build (Option (List (Nat × Nat) × Nat × List (Nat × Nat)))
  | [] => return none
  | e :: es => do
    if (← tag e.1) = t then return some ([], e.2, es)
    else return (← cutAt t es).map fun (before, n, after) => (e :: before, n, after)

/-- The text of a node that stands for a scalar. A map has that of its default value. -/
def text : Nat → Nat → Build String
  | 0, _ => fail
  | fuel + 1, n => do
    match ← node n with
    | .scalar _ text => return text
    | .list _ _ => fail
    | .map _ es =>
      match ← cutAt .default es with
      | some (_, value, _) => text fuel value
      | none => fail

/-- The sign of a default value is text where it is a key. -/
def settleKey (n : Nat) : Build Unit := do
  match ← node n with
  | .scalar .default text => setNode n (.scalar .text text)
  | _ => pure ()

/-- Removes the first entry by which a map takes over others, and gives its value. -/
def takeMerge (n : Nat) : Build (Option Nat) := do
  let node ← node n
  match ← cutAt .merge (← entries n) with
  | some (before, value, after) =>
    setNode n (.map node.tag (before ++ after))
    return some value
  | none => return none

mutual

/-- Lets a map take over what it shall. -/
def settle : Nat → Nat → Build Unit
  | 0, _ => fail
  | fuel + 1, n => do
    let taken ← takenOver fuel n
    let own ← entries n
    own.forM fun e => settleKey e.1
    setNode n (.map (← tag n) (taken ++ own))

/-- The entries that a map takes over from now on. -/
def takenOver : Nat → Nat → Build (List (Nat × Nat))
  | 0, _ => fail
  | fuel + 1, n => do
    match ← takeMerge n with
    | none => return []
    | some value =>
      let taken ← entriesOf fuel value
      return taken ++ (← takenOver fuel n)

/-- The entries that are taken over with a value: those of a map, or of some maps of
which the earlier ones count. -/
def entriesOf : Nat → Nat → Build (List (Nat × Nat))
  | 0, _ => fail
  | fuel + 1, value => do
    match ← node value with
    | .scalar _ _ => fail
    | .map _ _ =>
      settle fuel value
      entries value
    | .list _ items => do
      let taken ← items.mapM fun n => do
        let _ ← entries n
        settle fuel n
        entries n
      return taken.reverse.flatten

end

/-- Gives a new part its number. -/
def begin (b : Begun) : Build Value := do
  let number := (← get).begun.size
  modify fun s => { s with begun := s.begun.push b }
  return .part number

/-- What a node stands for when it is met for the first time. -/
def newValue (n : Nat) : Build Value := do
  let t ← tag n
  match t.scalar? with
  | some read =>
    let text ← text ((← get).nodes.size + 1) n
    match read text with
    | .ok s => return .scalar s
    | .error e => throw e
  | none => if t ∈ [.list, .map, .set, .pairs] then begin (.node n) else fail

/-- What a node stands for. -/
def value (n : Nat) : Build Value := do
  match ((← get).values[n]?).join with
  | some v => return v
  | none =>
    let v ← newValue n
    modify fun s => { s with values := s.values.setIfInBounds n (some v) }
    return v

/-- What a key stands for, which must be a scalar. -/
def key (n : Nat) : Build Scalar := do
  match ← value n with
  | .scalar s => return s
  | .part _ => fail

def items (n : Nat) : Build (List Nat) := do
  match ← node n with
  | .list _ items => return items
  | _ => fail

/-- The pair that a map with one entry stands for. -/
def pair (n : Nat) : Build Value := do
  match ← entries n with
  | [e] =>
    let first ← value e.1
    let second ← value e.2
    begin (.pair first second)
  | _ => fail

/-- The entries of a node, each key with its last value. -/
def mapEntries (n : Nat) : Build (List (Scalar × Value)) := do
  let _ ← entries n
  settle (3 * (← get).written + 3) n
  (← entries n).foldlM (fun es e => do
    let key ← key e.1
    let value ← value e.2
    return put key value es) []

/-- Looks into a node that has parts. -/
def content (n : Nat) : Build Part := do
  match ← tag n with
  | .list => return .list (← (← items n).mapM value)
  | .map => return .map (← mapEntries n)
  | .set => return .set ((← mapEntries n).map Prod.fst)
  | .pairs => return .list (← (← items n).mapM pair)
  | _ => fail

/-- Looks into the parts from a number on. -/
def parts : Nat → Nat → Build (List Part)
  | 0, _ => return []
  | fuel + 1, number => do
    match (← get).begun[number]? with
    | none => return []
    | some (.pair first second) => return .pair first second :: (← parts fuel (number + 1))
    | some (.node n) =>
      let part ← content n
      return part :: (← parts fuel (number + 1))

end Build

/-- How many parts a node is written with. -/
def width : Node → Nat
  | .scalar _ _ => 0
  | .list _ items => items.length
  | .map _ entries => entries.length

/-- What a root stands for, and the parts of the document by their numbers. A node is
looked into once, so no more parts are begun than there are nodes and items of lists. -/
def ofNodes (nodes : Array Node) (root : Nat) : Except ReadError (Value × Array Part) := do
  let written := nodes.foldl (fun n node => n + width node) 0
  let build : Build (Value × List Part) := do
    let v ← Build.value root
    return (v, ← Build.parts (nodes.size + written + 1) 0)
  let ((v, parts), _) ← build.run { nodes, values := .replicate nodes.size none, written }
  return (v, parts.toArray)

end Part

end InstrTable.Document
