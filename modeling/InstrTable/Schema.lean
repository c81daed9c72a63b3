import InstrTable.Document

/-!
Schemas for documents, and which violation of a schema is reported: the one
nearest to the root, of these the one with the greatest path, of these one of
something with a wrong type, of these the first.
-/

namespace InstrTable

/-- A shape that documents may have. A `text` may be limited to some choices; a
`list` may be required to have a number of items; a `record` has named fields, some
of which it must have, and no others; a `table` has any keys. -/
inductive Schema where
  | text (choices : List String) (nonEmpty : Bool)
  | list (item : Schema) (size : Option Nat)
  | record (fields : List (String × Bool × Schema))
  | table (value : Schema)

namespace Schema

/-- A field that a record must have. -/
def required (name : String) (schema : Schema) : String × Bool × Schema := (name, true, schema)

/-- A field that a record may have. -/
def optional (name : String) (schema : Schema) : String × Bool × Schema := (name, false, schema)

/-- One step from a document to a part of it. -/
inductive Step where
  | key (k : Scalar)
  | item (i : Nat)
  deriving DecidableEq, Repr

/-- The order of keys: numbers by size, others by their text. -/
def keyLt (a b : Scalar) : Bool :=
  match a.number?, b.number? with
  | some m, some n => m < n
  | _, _ => a.plain < b.plain

def Step.lt : Step → Step → Bool
  | .key a, .key b => keyLt a b
  | .item i, .item j => i < j
  | .key _, .item _ => true
  | .item _, .key _ => false

/-- The order of paths: the first step in which they differ decides. -/
def pathLt : List Step → List Step → Bool
  | _, [] => false
  | [], _ :: _ => true
  | s :: p, t :: q => s.lt t || (s == t && pathLt p q)

/-- What is wrong with a part of a document, which is shown as `shown`. -/
inductive Fault where
  | wrongType (shown type : String)
  | notAChoice (shown : String) (choices : List String)
  | missing (field : String)
  | unexpected (keys : List Scalar)
  | empty (shown : String)
  | tooShort (shown : String)
  | tooLong (shown : String)
  deriving DecidableEq, Repr

def Fault.message : Fault → String
  | .wrongType shown type => s!"{shown} is not of type '{type}'"
  | .notAChoice shown choices => s!"{shown} is not one of {quotedList choices}"
  | .missing field => s!"{quotedText field} is a required property"
  | .unexpected keys =>
    let names := ", ".intercalate (keys.map Scalar.shown)
    let verb := if keys.length = 1 then "was" else "were"
    s!"Additional properties are not allowed ({names} {verb} unexpected)"
  | .empty shown => s!"{shown} should be non-empty"
  | .tooShort shown => s!"{shown} is too short"
  | .tooLong shown => s!"{shown} is too long"

/-- Whether something has a wrong type. -/
def Fault.isOfType : Fault → Bool
  | .wrongType _ _ => true
  | _ => false

structure Violation where
  path : List Step
  fault : Fault
  deriving DecidableEq, Repr

namespace Violation

/-- The same violation, seen from one step further up. -/
def under (step : Step) (v : Violation) : Violation := { v with path := step :: v.path }

/-- The same violation, seen from the map that has what is violated under a key. A null
key is no step of a path. -/
def underKey (key : Scalar) (v : Violation) : Violation :=
  if key = .null then v else v.under (.key key)

/-- Whether `v` is reported rather than `w`, which was found earlier. -/
def outranks (v w : Violation) : Bool :=
  v.path.length < w.path.length ||
    (v.path.length == w.path.length &&
      (pathLt w.path v.path || (v.path == w.path && v.fault.isOfType && !w.fault.isOfType)))

/-- The violation that is reported. -/
def foremost? : List Violation → Option Violation
  | [] => none
  | v :: vs => some (vs.foldl (fun best w => if w.outranks best then w else best) v)

end Violation

/-- A violation at the document itself. -/
def here (fault : Fault) : Violation := ⟨[], fault⟩

def textFaults (choices : List String) (nonEmpty : Bool) (d : Document) : List Fault :=
  match d.text? with
  | some s =>
    (if choices.isEmpty || choices.contains s then [] else [.notAChoice d.shown choices]) ++
      if nonEmpty && s.isEmpty then [.empty d.shown] else []
  | none =>
    .wrongType d.shown "string" ::
      if choices.isEmpty then [] else [.notAChoice d.shown choices]

def sizeFaults (size : Option Nat) (d : Document) (length : Nat) : List Fault :=
  match size with
  | none => []
  | some n =>
    if length < n then [.tooShort d.shown]
    else if n < length then [.tooLong d.shown]
    else []

/-- Keys of a map that a record does not name, sorted by their text. -/
def unexpectedKeys (fields : List (String × Bool × Schema))
    (entries : List (Scalar × Document)) : List Scalar :=
  let names : List Scalar := fields.map fun f => .text f.1
  ((entries.map Prod.fst).filter fun k => !names.contains k).mergeSort
    fun a b => decide (a.plain ≤ b.plain)

def missingFields (fields : List (String × Bool × Schema)) (entries : List (Scalar × Document)) :
    List String :=
  (fields.filter fun f => f.2.1 && !(entries.map Prod.fst).contains (.text f.1)).map Prod.fst

mutual

/-- All violations, in the order in which a reading of schema and document meets them. -/
def violations : Schema → Document → List Violation
  | .text choices nonEmpty, d => (textFaults choices nonEmpty d).map here
  | .list item size, d =>
    match d.list? with
    | some items =>
      items.zipIdx.flatMap (fun x => (violations item x.1).map (·.under (.item x.2))) ++
        (sizeFaults size d items.length).map here
    | none => [here (.wrongType d.shown "array")]
  | .record fields, d =>
    match d.map? with
    | some entries =>
      (missingFields fields entries).map (fun f => here (.missing f)) ++
        fieldViolations fields entries ++
        (match unexpectedKeys fields entries with
          | [] => []
          | keys => [here (.unexpected keys)])
    | none => [here (.wrongType d.shown "object")]
  | .table value, d =>
    match d.map? with
    | some entries => entries.flatMap fun e => (violations value e.2).map (·.underKey e.1)
    | none => [here (.wrongType d.shown "object")]

def fieldViolations : List (String × Bool × Schema) → List (Scalar × Document) → List Violation
  | [], _ => []
  | (name, _, schema) :: fields, entries =>
    (match entries.lookup (.text name) with
      | none => []
      | some d => (violations schema d).map (·.under (.key (.text name)))) ++
      fieldViolations fields entries

end

/-- The violation that is reported for a document, if it has one. -/
def check (schema : Schema) (d : Document) : Option Violation :=
  Violation.foremost? (schema.violations d)

end Schema

end InstrTable
