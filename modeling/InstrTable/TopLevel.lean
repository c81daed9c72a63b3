import InstrTable.Bracket
import InstrTable.Text.Blank
import InstrTable.Text.Piece

/-!
Splitting at the separators that stand outside of every bracket. A text is read
as atoms: a separator, a whole bracketed span, or one character.
-/

namespace InstrTable

inductive SplitError where
  | emptyOperand (text : String)
  | unterminated (opening : Char) (column : Nat) (text : String)
  deriving DecidableEq, Repr

def SplitError.message : SplitError → String
  | .emptyOperand text => s!"Found empty operand in '{text}'"
  | .unterminated opening column text =>
    s!"Unterminated '{opening.toString}' at column {column} in '{text}'"

namespace TopLevel

inductive Atom where
  | separator
  | span (cs : List Char)
  deriving DecidableEq, Repr

/-- An opening bracket that nothing closes, and its column. -/
structure Unclosed where
  opening : Char
  column : Nat
  deriving DecidableEq, Repr

/-- The atoms of a text whose first character is in column `column`, up to its
end or to the first bracket that nothing closes. -/
def atoms (sep : Option Char) (column : Nat) : List Char → List Atom × Option Unclosed
  | [] => ([], none)
  | c :: cs =>
    if some c = sep then
      let (as, unclosed) := atoms sep (column + 1) cs
      (.separator :: as, unclosed)
    else match closing? c with
      | none =>
        let (as, unclosed) := atoms sep (column + 1) cs
        (.span [c] :: as, unclosed)
      | some d =>
        match closingOffset? c (some d) 0 cs with
        | none => ([], some ⟨c, column⟩)
        | some k =>
          let (as, unclosed) := atoms sep (column + (k + 2)) (cs.drop (k + 1))
          (.span (c :: cs.take (k + 1)) :: as, unclosed)
termination_by cs => cs.length
decreasing_by
  · exact Nat.lt_succ_self _
  · exact Nat.lt_succ_self _
  · rw [List.length_drop]
    exact Nat.lt_succ_of_le (Nat.sub_le _ _)

/-- The texts between the separators, one more than there are of them. -/
def runs : List Atom → List (List Char)
  | [] => [[]]
  | .separator :: as => [] :: runs as
  | .span cs :: as => Text.extendHead cs (runs as)

def isBlankRun (run : List Char) : Bool := run.all Text.isBlank

end TopLevel

open TopLevel in
/-- The trimmed texts between the separators outside of every bracket. A blank
text is an error unless all of `s` is blank. Of two errors the leftmost counts,
so a text that an unclosed bracket cuts short is not looked at. -/
def splitTopLevel (sep : Option Char) (s : String) : Except SplitError (List String) :=
  let u := Text.trim s.toList
  if u.isEmpty then .ok []
  else
    let (as, unclosed) := atoms sep 1 u
    let rs := runs as
    match unclosed with
    | some ⟨opening, column⟩ =>
      if rs.dropLast.any isBlankRun then .error (.emptyOperand (String.ofList u))
      else .error (.unterminated opening column (String.ofList u))
    | none =>
      if rs.any isBlankRun then .error (.emptyOperand (String.ofList u))
      else .ok (rs.map fun run => String.ofList (Text.trim run))

/-- The character of a separator text. A text of any other length separates nothing. -/
def separatorOf (s : String) : Option Char :=
  match s.toList with
  | [c] => some c
  | _ => none

end InstrTable
