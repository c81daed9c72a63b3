import InstrTable.Text.Piece

/-!
Paths of files, without the parts that lead nowhere.
-/

namespace InstrTable

namespace Path

/-- The slashes that a path begins with. Two of them are kept, more count as one. -/
def root (cs : List Char) : String :=
  match cs with
  | '/' :: '/' :: '/' :: _ => "/"
  | '/' :: '/' :: _ => "//"
  | '/' :: _ => "/"
  | _ => ""

/-- The parts of a path, without the empty ones and the dots. -/
def parts (s : String) : List String := (piecesOf '/' s).filter fun part => part ≠ "" ∧ part ≠ "."

/-- A path with single slashes and without dots. -/
def normal (s : String) : String :=
  let path := root s.toList ++ "/".intercalate (parts s)
  if path = "" then "." else path

/-- A path seen from a directory. An absolute path stays what it is. -/
def under (directory path : String) : String :=
  if root path.toList = "" then
    "/".intercalate (directory :: parts path)
  else normal path

/-- The directories around a place, and it. Each is given by the names on the way to it. -/
def heads : List String → List (List String)
  | [] => [[]]
  | name :: names => [] :: (heads names).map (name :: ·)

/-- Follows the parts of a path from one of some directories to another. There are no
others to go through. -/
def walk (directories : List (List String)) :
    (place : List String) → List String → Option (List String)
  | place, [] => some place
  | place, part :: parts =>
    if part = ".." then
      if place.isEmpty then none else walk directories place.dropLast parts
    else
      let place := place ++ [part]
      if directories.contains place then walk directories place parts else none

/-- The names on the way to the file that a path leads to from a directory. -/
def find? (directories : List (List String)) (place : List String) (path : String) :
    Option (List String) :=
  if root path.toList ≠ "" then none
  else
    match (parts path).reverse with
    | [] => none
    | file :: above => (walk directories place above.reverse).map (· ++ [file])

end Path

end InstrTable
