import InstrTable.Document.Tag
import InstrTable.Document.Token

/-!
Nodes of a document, as its tokens group them. A node may have a name, under which it
stands in other places too, inside of itself among them. So nodes are numbered, and
one is a part of another by its number.
-/

namespace InstrTable.Document

inductive Node where
  | scalar (tag : Tag) (text : String)
  | list (tag : Tag) (items : List Nat)
  | map (tag : Tag) (entries : List (Nat × Nat))
  deriving Repr

instance : Inhabited Node := ⟨.scalar .null ""⟩

namespace Node

def tag : Node → Tag
  | .scalar tag _ => tag
  | .list tag _ => tag
  | .map tag _ => tag

/-- What stands where nothing is written. -/
def absent : Node := .scalar .null ""

/-- A scalar. One that is quoted, or has a tag that means nothing, is plain or not
as the tag says. -/
def ofScalar (tag : Option String) (isPlain : Bool) (text : String) : Node :=
  match tag with
  | some "!" => .scalar (.ofPlain text) text
  | some name => .scalar (.ofName name) text
  | none => .scalar (if isPlain then .ofPlain text else .text) text

/-- The tag of a list or a map, which is `own` unless another is written. -/
def tagOf (own : Tag) (tag : Option String) : Tag :=
  match tag with
  | some "!" => own
  | some name => .ofName name
  | none => own

/-- Where a node is expected. A list that is a value of a block may be indented as far
as the block is, and has no tokens for its beginning and its end then. -/
inductive Place where
  | flow
  | block
  | underKey
  deriving DecidableEq, Repr

/-- What is left to read, the nodes that were begun, the numbers of those that have
names, and what handles stand for. -/
structure Reading where
  tokens : List Token
  nodes : Array Node := #[]
  named : List (String × Nat) := []
  handles : List (String × String) := []

/-- A step of a reading, which may fail. -/
abbrev Step := StateT Reading (Except ReadError)

namespace Step

def fail {α : Type} : Step α := fun _ => .error .malformed

/-- The next token, up to where the text cannot be read. -/
def next? : Step (Option Token) := do
  match (← get).tokens.head? with
  | some (.broken e) => throw e
  | t => return t

def drop : Step Unit := modify fun r => { r with tokens := r.tokens.drop 1 }

/-- Takes a token if it is the next. -/
def take (t : Token) : Step Bool := do
  if (← next?) = some t then
    drop
    return true
  else return false

def expect (t : Token) : Step Unit := do
  unless ← take t do fail

/-- Whether one of some tokens is the next. -/
def sees (ts : List Token) : Step Bool := do return (← next?).any ts.contains

def anchor? : Step (Option String) := do
  match ← next? with
  | some (.anchor name) =>
    drop
    return some name
  | _ => return none

/-- Takes a tag, and gives its full name. -/
def tag? : Step (Option String) := do
  match ← next? with
  | some (.tag t) =>
    drop
    match t.handle with
    | none => return some t.suffix
    | some handle =>
      match (← get).handles.lookup handle with
      | some front => return some (front ++ t.suffix)
      | none => fail
  | _ => return none

/-- Takes a name and a tag, in any order. -/
def properties : Step (Option String × Option String) := do
  match ← anchor? with
  | some name => return (some name, ← tag?)
  | none =>
    let tag ← tag?
    return (← if tag.isSome then anchor? else pure none, tag)

/-- The number of the node with a name. -/
def named (name : String) : Step Nat := do
  match (← get).named.lookup name with
  | some n => return n
  | none => fail

/-- Begins a node, and gives it a name that no other has. -/
def add (name : Option String) (node : Node) : Step Nat := do
  let n := (← get).nodes.size
  if let some name := name then
    if ((← get).named.lookup name).isSome then fail
    else modify fun r => { r with named := (name, n) :: r.named }
  modify fun r => { r with nodes := r.nodes.push node }
  return n

/-- Completes a node that was begun. -/
def complete (n : Nat) (node : Node) : Step Unit :=
  modify fun r => { r with nodes := r.nodes.setIfInBounds n node }

/-- Adds a list, which has no items yet while they are read. -/
def addList (name tag : Option String) (items : Step (List Nat)) : Step Nat := do
  let tag := tagOf .list tag
  let n ← add name (.list tag [])
  complete n (.list tag (← items))
  return n

/-- Adds a map, which has no entries yet while they are read. -/
def addMap (name tag : Option String) (entries : Step (List (Nat × Nat))) : Step Nat := do
  let tag := tagOf .map tag
  let n ← add name (.map tag [])
  complete n (.map tag (← entries))
  return n

mutual

/-- Reads a node. -/
def node : Nat → Place → Step Nat
  | 0, _ => fail
  | fuel + 1, place => do
    match ← next? with
    | some (.alias name) =>
      drop
      named name
    | _ =>
      let (name, tag) ← properties
      content fuel place name tag

/-- Reads a node unless one of the tokens that may follow it is the next. -/
def nodeBefore : Nat → Place → List Token → Step Nat
  | 0, _, _ => fail
  | fuel + 1, place, ts => do if ← sees ts then add none absent else node fuel place

/-- Reads what follows the name and the tag of a node. It may be nothing if there is
one of them. -/
def content : Nat → Place → Option String → Option String → Step Nat
  | 0, _, _, _ => fail
  | fuel + 1, place, name, tag => do
    match ← next? with
    | some (.scalar text isPlain) =>
      drop
      add name (ofScalar tag isPlain text)
    | some .flowList =>
      drop
      addList name tag (flowItems fuel true)
    | some .flowMap =>
      drop
      addMap name tag (flowEntries fuel true)
    | t =>
      if t = some .item ∧ place = .underKey then addList name tag (looseItems fuel)
      else if t = some .blockList ∧ place ≠ .flow then
        drop
        addList name tag (blockItems fuel)
      else if t = some .blockMap ∧ place ≠ .flow then
        drop
        addMap name tag (blockEntries fuel)
      else if name.isSome || tag.isSome then add name (ofScalar tag true "")
      else fail

/-- Reads the items of a list that has no tokens for its beginning and its end. -/
def looseItems : Nat → Step (List Nat)
  | 0 => fail
  | fuel + 1 => do
    if ← take .item then
      let n ← nodeBefore fuel .block [.item, .key, .value, .blockEnd]
      return n :: (← looseItems fuel)
    else return []

def blockItems : Nat → Step (List Nat)
  | 0 => fail
  | fuel + 1 => do
    if ← take .item then
      let n ← nodeBefore fuel .block [.item, .blockEnd]
      return n :: (← blockItems fuel)
    else
      expect .blockEnd
      return []

def blockEntries : Nat → Step (List (Nat × Nat))
  | 0 => fail
  | fuel + 1 => do
    if ← take .key then
      let stops : List Token := [.key, .value, .blockEnd]
      let key ← nodeBefore fuel .underKey stops
      let value ← if ← take .value then nodeBefore fuel .underKey stops else add none absent
      return (key, value) :: (← blockEntries fuel)
    else
      expect .blockEnd
      return []

/-- Reads a key, if one is marked, and its value. `closing` ends what they stand in. -/
def flowEntry : Nat → Token → Step (Nat × Nat)
  | 0, _ => fail
  | fuel + 1, closing => do
    let key ← nodeBefore fuel .flow [.value, .comma, closing]
    let value ←
      if ← take .value then nodeBefore fuel .flow [.comma, closing] else add none absent
    return (key, value)

/-- Reads the items of a list in brackets. A key with its value is a map by itself. -/
def flowItems : Nat → (isFirst : Bool) → Step (List Nat)
  | 0, _ => fail
  | fuel + 1, isFirst => do
    if ← take .flowListEnd then return []
    else
      unless isFirst do expect .comma
      if ← take .key then
        let n ← addMap none none (return [← flowEntry fuel .flowListEnd])
        return n :: (← flowItems fuel false)
      else if ← take .flowListEnd then return []
      else
        let n ← node fuel .flow
        return n :: (← flowItems fuel false)

/-- Reads the entries of a map in brackets. A node that is marked as no key is one
without a value. -/
def flowEntries : Nat → (isFirst : Bool) → Step (List (Nat × Nat))
  | 0, _ => fail
  | fuel + 1, isFirst => do
    if ← take .flowMapEnd then return []
    else
      unless isFirst do expect .comma
      if ← take .key then
        let entry ← flowEntry fuel .flowMapEnd
        return entry :: (← flowEntries fuel false)
      else if ← take .flowMapEnd then return []
      else
        let key ← node fuel .flow
        let entry := (key, ← add none absent)
        return entry :: (← flowEntries fuel false)

end

/-- The handles that need no directive. -/
def commonHandles : List (String × String) := [("!", "!"), ("!!", Tag.commonFront)]

/-- Reads the directives in front of a document. The version is given once at most,
and is the first; a handle is given once at most. -/
def directives : Nat → Bool → List (String × String) → Step (List (String × String))
  | 0, _, _ => fail
  | fuel + 1, hasVersion, handles => do
    match ← next? with
    | some (.directive d) =>
      drop
      match d with
      | .version major =>
        if hasVersion || major ≠ 1 then fail else directives fuel true handles
      | .handle name front =>
        if (handles.lookup name).isSome then fail
        else directives fuel hasVersion (handles ++ [(name, front)])
      | .other => directives fuel hasVersion handles
    | _ => return handles

/-- Reads a document behind its directives and its separator, if it has them. -/
def body (fuel : Nat) : Step Nat := do
  match ← next? with
  | none => add none absent
  | some .documentEnd => add none absent
  | some .documentStart => add none absent
  | some (.directive _) => add none absent
  | some _ => node fuel .block

/-- Reads a document, if there is one, and gives its root. -/
def document (fuel : Nat) : Step (Option Nat) := do
  match ← next? with
  | none => return none
  | some .documentStart => start
  | some (.directive _) => start
  | some _ =>
    modify fun r => { r with handles := commonHandles }
    some <$> node fuel .block
where
  start : Step (Option Nat) := do
    let handles ← directives fuel false []
    expect .documentStart
    modify fun r => { r with handles := handles ++ commonHandles }
    some <$> body fuel

/-- Reads what may follow a document: marks of its end, and no other document. -/
def finish (fuel : Nat) : Step Unit := do
  modify fun r => { r with tokens := r.tokens.dropWhile (· = .documentEnd) }
  if (← next?).isSome then
    let _ ← directives fuel false []
    let _ ← next?
    fail

end Step

/-- The nodes that tokens make up, all of them, and the number of the root. There is
none if there are no tokens. -/
def ofTokens (ts : List Token) : Except ReadError (Array Node × Option Nat) := do
  let fuel := 6 * ts.length + 6
  let (root, r) ← (do
    let root ← Step.document fuel
    Step.finish fuel
    return root : Step (Option Nat)).run { tokens := ts }
  return (r.nodes, root)

end Node

end InstrTable.Document
