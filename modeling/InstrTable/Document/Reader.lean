import InstrTable.Document.Lexer
import InstrTable.Document.Part

/-!
Reading a document from its text.
-/

namespace InstrTable.Document

namespace Part

/-- The numbers of the parts that a part holds itself. -/
def held : Part → List Nat
  | .list items => items.flatMap numbers
  | .map entries => entries.flatMap fun e => numbers e.2
  | .set _ => []
  | .pair first second => numbers first ++ numbers second
where
  numbers : Value → List Nat
    | .scalar _ => []
    | .part n => [n]

/-- The parts that are `due` or `seen` and those in the ones that are due. -/
def within (parts : Array Part) : Nat → (seen due : List Nat) → List Nat
  | 0, seen, _ => seen
  | _, seen, [] => seen
  | fuel + 1, seen, n :: due =>
    if seen.contains n then within parts fuel seen due
    else within parts fuel (n :: seen) (((parts[n]?).map held).getD [] ++ due)

/-- Whether a part is somewhere in itself. -/
def isKnot (parts : Array Part) (n : Nat) : Bool :=
  let below := ((parts[n]?).map held).getD []
  let fuel := parts.foldl (fun k p => k + p.held.length) (below.length + 1)
  (within parts fuel [] below).contains n

/-- How far from its root a document is written out wherever parts hold themselves. No
table has parts that are deeper. -/
def depth : Nat := 4

/-- A part without what it holds. -/
def hollow : Part → Document
  | .list _ => .list []
  | .map _ => .map []
  | .set _ => .set []
  | .pair _ _ => .pair (.list []) (.list [])

/-- The document that a value is, `level` steps below the root. A knot is hollow inside
of itself where it and the one around are deep enough; `around` holds those. -/
def document (parts : Array Part) (knots : Array Bool) :
    Nat → (level : Nat) → (around : List Nat) → Value → Document
  | _, _, _, .scalar s => .scalar s
  | 0, _, _, .part _ => .list []
  | fuel + 1, level, around, .part n =>
    match parts[n]? with
    | none => .list []
    | some p =>
      let isKnot := (knots[n]?).getD false
      if isKnot && around.contains n then .knot n p.hollow
      else
        let around := if isKnot && depth ≤ level then n :: around else around
        let inner := document parts knots fuel (level + 1) around
        let d : Document := match p with
          | .list items => .list (items.map inner)
          | .map entries => .map (entries.map fun e => (e.1, inner e.2))
          | .set members => .set members
          | .pair first second => .pair (inner first) (inner second)
        if isKnot then .knot n d else d

end Part

/-- Reads a text. An empty one holds nothing. -/
def read (text : String) : Except ReadError Document := do
  match ← Node.ofTokens (Token.ofText text.toList) with
  | (_, none) => return .scalar .null
  | (nodes, some root) =>
    let (v, parts) ← Part.ofNodes nodes root
    let knots := (Array.range parts.size).map (Part.isKnot parts)
    return Part.document parts knots (Part.depth + parts.size + 1) 0 [] v

end InstrTable.Document
