import InstrTable.Document.Property

/-!
Tokens of a document: its marks, its scalars, and the beginnings and ends of the
lists and maps that indentation tells.
-/

namespace InstrTable.Document

inductive Token where
  | directive (d : Directive)
  | documentStart
  | documentEnd
  | blockList
  | blockMap
  | blockEnd
  | flowList
  | flowListEnd
  | flowMap
  | flowMapEnd
  /-- The hyphen of an item. -/
  | item
  | comma
  | key
  | value
  | alias (name : String)
  | anchor (name : String)
  | tag (t : WrittenTag)
  | scalar (text : String) (isPlain : Bool)
  /-- Stands where the text cannot be read any further. -/
  | broken (e : ReadError)
  deriving DecidableEq, Repr

end InstrTable.Document
