/-!
Cutting a text at a character, and putting the pieces together again.
-/

namespace InstrTable.Text

/-- Lengthens the first piece at its front. -/
def extendHead (front : List Char) : List (List Char) → List (List Char)
  | [] => [front]
  | p :: ps => (front ++ p) :: ps

/-- The pieces between the occurrences of `sep`, one more than there are of them. -/
def pieces (sep : Char) : List Char → List (List Char)
  | [] => [[]]
  | c :: cs => if c = sep then [] :: pieces sep cs else extendHead [c] (pieces sep cs)

/-- What stands before and after the first `sep`. -/
def cutFirst? (sep : Char) : List Char → Option (List Char × List Char)
  | [] => none
  | c :: cs =>
    if c = sep then some ([], cs)
    else (cutFirst? sep cs).map fun (before, after) => (c :: before, after)

/-- What stands before and after the last `sep`. -/
def cutLast? (sep : Char) (cs : List Char) : Option (List Char × List Char) :=
  (cutFirst? sep cs.reverse).map fun (after, before) => (before.reverse, after.reverse)

/-- The pieces with `sep` between neighbours. -/
def joined (sep : Char) : List (List Char) → List Char
  | [] => []
  | [p] => p
  | p :: q :: ps => p ++ sep :: joined sep (q :: ps)

/-- What follows `front`, when a text begins with it. -/
def after? : (front : List Char) → List Char → Option (List Char)
  | [], cs => some cs
  | _ :: _, [] => none
  | f :: front, c :: cs => if f = c then after? front cs else none

/-- What precedes `back`, when a text ends with it. -/
def before? (back cs : List Char) : Option (List Char) :=
  (after? back.reverse cs.reverse).map List.reverse

/-- Whether `part` stands somewhere in a text. -/
def occursIn (part : List Char) : List Char → Bool
  | [] => part.isEmpty
  | c :: cs => part.isPrefixOf (c :: cs) || occursIn part cs

@[simp] theorem extendHead_cons (front p : List Char) (ps : List (List Char)) :
    extendHead front (p :: ps) = (front ++ p) :: ps := rfl

theorem extendHead_ne_nil (front : List Char) (ps : List (List Char)) :
    extendHead front ps ≠ [] := by
  cases ps <;> simp [extendHead]

theorem length_extendHead (front : List Char) {ps : List (List Char)} (h : ps ≠ []) :
    (extendHead front ps).length = ps.length := by
  cases ps with
  | nil => exact absurd rfl h
  | cons p ps => rfl

theorem pieces_ne_nil (sep : Char) (cs : List Char) : pieces sep cs ≠ [] := by
  cases cs with
  | nil => simp [pieces]
  | cons c cs =>
    simp only [pieces]
    split
    · simp
    · exact extendHead_ne_nil _ _

theorem joined_nil_cons (sep : Char) {ps : List (List Char)} (h : ps ≠ []) :
    joined sep ([] :: ps) = sep :: joined sep ps := by
  cases ps with
  | nil => exact absurd rfl h
  | cons p ps => simp [joined]

theorem joined_extendHead (sep : Char) (front : List Char) {ps : List (List Char)}
    (h : ps ≠ []) : joined sep (extendHead front ps) = front ++ joined sep ps := by
  match ps with
  | [] => exact absurd rfl h
  | [p] => rfl
  | p :: q :: ps => simp [extendHead, joined]

theorem joined_pieces (sep : Char) (cs : List Char) : joined sep (pieces sep cs) = cs := by
  induction cs with
  | nil => rfl
  | cons c cs ih =>
    simp only [pieces]
    split
    · next h => rw [joined_nil_cons sep (pieces_ne_nil sep cs), ih, h]
    · rw [joined_extendHead sep [c] (pieces_ne_nil sep cs), ih, List.singleton_append]

theorem after?_eq_some_iff {front cs rest : List Char} :
    after? front cs = some rest ↔ cs = front ++ rest := by
  induction front generalizing cs with
  | nil => simp [after?]
  | cons f front ih =>
    cases cs with
    | nil => simp [after?]
    | cons c cs =>
      simp only [after?, List.cons_append, List.cons.injEq]
      by_cases h : f = c
      · simp [h, ih]
      · simp [h, Ne.symm h]

end InstrTable.Text

namespace InstrTable

/-- The pieces of a text between the occurrences of `sep`. -/
def piecesOf (sep : Char) (s : String) : List String :=
  (Text.pieces sep s.toList).map String.ofList

end InstrTable
