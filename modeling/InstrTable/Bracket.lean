import InstrTable.Position

/-!
Brackets and the closing bracket that balances an opening one.
-/

namespace InstrTable

/-- The bracket that closes `c`, if `c` opens one. -/
def closing? : Char → Option Char
  | '(' => some ')'
  | '<' => some '>'
  | '[' => some ']'
  | '{' => some '}'
  | _ => none

/-- Offset of the character that closes `pending + 1` open brackets. Only
`opening` and `closing` are counted. -/
def closingOffset? (opening : Char) (closing : Option Char) :
    (pending : Nat) → List Char → Option Nat
  | _, [] => none
  | pending, c :: cs =>
    if c = opening then (closingOffset? opening closing (pending + 1) cs).map (· + 1)
    else if some c = closing then
      match pending with
      | 0 => some 0
      | pending + 1 => (closingOffset? opening closing pending cs).map (· + 1)
    else (closingOffset? opening closing pending cs).map (· + 1)

/-- Position of the bracket that closes the one at position `i`, and the length
of the text if nothing closes it. A scan that starts at a position counted from
the end goes on from the first character after the last. -/
def closingIndex (s : String) (i : Int) : Except PositionError Int :=
  let cs := s.toList
  match place? cs.length i with
  | none => .error .outsideText
  | some k =>
    match cs.drop k with
    | [] => .error .outsideText
    | c :: rest =>
      let rest := if i < 0 then rest ++ cs else rest
      .ok (i + 1 + ((closingOffset? c (closing? c) 0 rest).getD rest.length : Nat))

theorem closingOffset?_lt {opening : Char} {closing : Option Char} {pending k : Nat}
    {cs : List Char} (h : closingOffset? opening closing pending cs = some k) :
    k < cs.length := by
  induction cs generalizing pending k with
  | nil => simp [closingOffset?] at h
  | cons c cs ih =>
    have step {p : Nat} (h : (closingOffset? opening closing p cs).map (· + 1) = some k) :
        k < (c :: cs).length := by
      obtain ⟨j, hj, rfl⟩ := Option.map_eq_some_iff.1 h
      simpa using ih hj
    simp only [closingOffset?] at h
    split at h
    · exact step h
    · split at h
      · cases pending with
        | zero => simp at h; simp [← h]
        | succ p => exact step h
      · exact step h

end InstrTable
