import InstrTable.Document.Quoted

/-!
Names and tags of the nodes of a document, and the directives in front of one.
-/

namespace InstrTable.Document

/-- Characters of a name. -/
def isNameChar (c : Char) : Bool := c.isAlphanum || c = '-' || c = '_'

/-- Takes a name, which has a character at least. -/
def name? (c : Cursor) : Option (String × Cursor) :=
  match c.rest.takeWhile isNameChar with
  | [] => none
  | name => some (String.ofList name, c.advance name.length)

/-- Reads the name of a node, behind its mark. -/
def nodeName? (c : Cursor) : Option (String × Cursor) := do
  let (name, c) ← name? c
  let ends (d : Char) : Bool := isGap d || ['?', ':', ',', ']', '}', '%', '@', '`'].contains d
  if c.rest.head?.all ends then some (name, c) else none

/-- A tag as it is written. A handle stands for the front of the full name. -/
structure WrittenTag where
  handle : Option String
  suffix : String
  deriving DecidableEq, Repr

/-- Characters of a tag. A percent sign is an escape. -/
def isTagChar (c : Char) : Bool :=
  c.isAlphanum || ['-', ';', '/', '?', ':', '@', '&', '=', '+', '$', ',', '_', '.', '!', '~', '*',
    '\'', '(', ')', '[', ']'].contains c

/-- The bytes that percent signs and hexadecimal digits stand for. -/
def escapedBytes? : List Char → Option (List UInt8 × List Char)
  | '%' :: a :: b :: cs => do
    let n ← Text.natIn? 16 [a, b]
    let (bytes, rest) ← escapedBytes? cs
    return (n.toUInt8 :: bytes, rest)
  | '%' :: _ => none
  | cs => some ([], cs)

/-- The text of a tag. Bytes in a row make up characters. -/
def tagText? : Nat → List Char → Option (List Char × List Char)
  | 0, _ => none
  | _, [] => some ([], [])
  | fuel + 1, c :: cs =>
    if c = '%' then do
      let (bytes, rest) ← escapedBytes? (c :: cs)
      let text ← String.fromUTF8? ⟨bytes.toArray⟩
      let (more, rest) ← tagText? fuel rest
      return (text.toList ++ more, rest)
    else if isTagChar c then (tagText? fuel cs).map fun (more, rest) => (c :: more, rest)
    else some ([], c :: cs)

/-- Takes the text of a tag, which is not empty. -/
def takeTagText? (c : Cursor) : Option (String × Cursor) := do
  let (text, rest) ← tagText? (c.rest.length + 1) c.rest
  if text.isEmpty then none
  else some (String.ofList text, c.advance (c.rest.length - rest.length))

/-- Takes a handle: an exclamation mark, or a name between two of them. -/
def takeHandle? (c : Cursor) : Option (String × Cursor) :=
  match c.rest with
  | '!' :: rest =>
    if rest.head? = some ' ' then some ("!", c.next)
    else
      let name := rest.takeWhile isNameChar
      match rest.drop name.length with
      | '!' :: _ => some (String.ofList ('!' :: name ++ ['!']), c.advance (name.length + 2))
      | _ => none
  | _ => none

/-- Whether a line or a word ends here with a space. -/
def endsItem (c : Cursor) : Bool := c.rest.head?.all fun d => d = ' ' || isBreak d

/-- Whether a handle begins here: a second exclamation mark stands in the word. -/
def beginsHandle (c : Cursor) : Bool :=
  ((c.rest.drop 1).takeWhile fun d => d ≠ ' ' && !isBreak d).contains '!'

/-- Reads a full name between angle brackets. -/
def fullTag? (c : Cursor) : Option (WrittenTag × Cursor) := do
  let (suffix, c) ← takeTagText? (c.advance 2)
  if c.rest.head? = some '>' then some (⟨none, suffix⟩, c.next) else none

/-- Reads a handle and what follows it. -/
def shortTag? (c : Cursor) : Option (WrittenTag × Cursor) := do
  let (handle, c) ← if beginsHandle c then takeHandle? c else some ("!", c.next)
  let (suffix, c) ← takeTagText? c
  return (⟨some handle, suffix⟩, c)

/-- Reads a tag. A mark alone is a tag that means nothing. -/
def tag? (c : Cursor) : Option (WrittenTag × Cursor) :=
  let found :=
    match c.rest.drop 1 with
    | '<' :: _ => fullTag? c
    | rest => if endsWord rest then some (⟨none, "!"⟩, c.next) else shortTag? c
  found.filter fun (_, c) => endsItem c

/-- What a line in front of a document says: the version that it is written in, or
what a handle stands for. Anything else says nothing. -/
inductive Directive where
  | version (major : Nat)
  | handle (name front : String)
  | other
  deriving DecidableEq, Repr

/-- Takes a number, which has a digit at least. -/
def number? (c : Cursor) : Option (Nat × Cursor) := do
  let ds := c.rest.takeWhile Char.isDigit
  return (← Text.natIn? 10 ds, c.advance ds.length)

def version? (c : Cursor) : Option (Directive × Cursor) := do
  let (major, c) ← number? (c.skip (· = ' '))
  if c.rest.head? ≠ some '.' then none
  else
    let (_, c) ← number? c.next
    return (.version major, c)

def handle? (c : Cursor) : Option (Directive × Cursor) := do
  let (name, c) ← takeHandle? (c.skip (· = ' '))
  if c.rest.head? ≠ some ' ' then none
  else
    let (front, c) ← takeTagText? (c.skip (· = ' '))
    return (.handle name front, c)

/-- Reads a directive, behind its mark, and the rest of its line. -/
def directive? (c : Cursor) : Option (Directive × Cursor) := do
  let (name, c) ← name? c
  if !endsItem c then none
  else
    let (directive, c) ← match name with
      | "YAML" => version? c
      | "TAG" => handle? c
      | _ => some (.other, c.skip (!isBreak ·))
    if !endsItem c then none
    else
      let c := (c.skip (· = ' ')).skipComment
      match c.break?, c.rest with
      | some (_, c), _ => some (directive, c)
      | none, [] => some (directive, c)
      | none, _ => none

end InstrTable.Document
