import InstrTable.BitTemplate.Reader
import Mathlib.Data.List.DropRight
import Mathlib.Data.List.Forall2

/-!
What the segments of a bit template spell. A segment is a run of binary digits, or
a name with one of three suffixes, or a bare name; each of the five says how wide
its field is. Reading a segment gives the field that it spells, and no field only
when its name is empty.
-/

namespace InstrTable

namespace BitTemplate

/-- A run of binary digits. -/
def isRun (segment : List Char) : Bool := !segment.isEmpty && segment.all isBit

/-- The name in a segment, without the quotes around it and the suffix behind it. -/
def nameIn (segment : List Char) : List Char :=
  match takeSuffix? (unquoted segment) with
  | some (name, _) => name
  | none => unquoted segment

/-- Whether a segment is a field. The others have an empty name. -/
def isField (segment : List Char) : Bool := isRun segment || !(nameIn segment).isEmpty

/-- A named field with the quotes of its segment. -/
def quotedField (segment name : List Char) (slice : Option (Nat × Nat)) : FieldContent :=
  .named (String.ofList name) slice (segment.head? = some '\'')
    (segment.getLast? = some '\'' && 1 < segment.length)

/-- What a segment says of its field, and how many bits it takes. A bare name is as
wide as the field that is known by it, or else one bit. -/
inductive Spells (segment : List Char) : FieldContent → Nat → Prop
  | run (h : isRun segment = true) :
      Spells segment (.literal (segment.map (· = '1'))) segment.length
  | range {name : List Char} (first last : Nat) (h : isRun segment = false)
      (hs : takeSuffix? (unquoted segment) = some (name, .slice first last)) (hn : name ≠ []) :
      Spells segment (quotedField segment name (some (max first last, min first last)))
        (max first last - min first last + 1)
  | index {name : List Char} (n : Nat) (h : isRun segment = false)
      (hs : takeSuffix? (unquoted segment) = some (name, .bit n)) (hn : name ≠ []) :
      Spells segment (quotedField segment name (some (n, n))) 1
  | width {name : List Char} (n : Nat) (h : isRun segment = false)
      (hs : takeSuffix? (unquoted segment) = some (name, .width n)) (hn : name ≠ []) :
      Spells segment (quotedField segment name none) n
  | bare (h : isRun segment = false) (hs : takeSuffix? (unquoted segment) = none)
      (hn : unquoted segment ≠ []) :
      Spells segment (quotedField segment (unquoted segment) none)
        (((knownField? (String.ofList (unquoted segment))).map (·.bits)).getD 1)

theorem unquoted_isPrefix (segment : List Char) :
    unquoted segment <+: segment.dropWhile (· = '\'') :=
  List.rdropWhile_prefix _ _

theorem unquoted_subset (segment : List Char) : unquoted segment ⊆ segment :=
  List.Subset.trans (unquoted_isPrefix segment).subset (List.dropWhile_suffix _).subset

theorem readNamed_spells (opcode : String) {segment : List Char} (hrun : isRun segment = false)
    (hname : nameIn segment ≠ []) :
    ∃ content width, (readNamed opcode segment).1 = some (content, width) ∧
      Spells segment content width := by
  unfold nameIn at hname
  cases hs : takeSuffix? (unquoted segment) with
  | none =>
      rw [hs] at hname
      refine ⟨_, _, ?_, .bare hrun hs hname⟩
      simp [readNamed, hs, hname, quotedField]
  | some found =>
      obtain ⟨name, suffix⟩ := found
      rw [hs] at hname
      cases suffix with
      | slice first last =>
          refine ⟨_, _, ?_, .range first last hrun hs hname⟩
          simp [readNamed, hs, hname, quotedField]
      | bit n =>
          refine ⟨_, _, ?_, .index n hrun hs hname⟩
          simp [readNamed, hs, hname, quotedField]
      | width n =>
          refine ⟨_, _, ?_, .width n hrun hs hname⟩
          simp [readNamed, hs, hname, quotedField]

/-- A field without a name is reported and dropped. -/
theorem readNamed_nameless (opcode : String) {segment : List Char} (hname : nameIn segment = []) :
    (readNamed opcode segment).1 = none ∧ .emptyField opcode ∈ (readNamed opcode segment).2 := by
  unfold nameIn at hname
  cases hs : takeSuffix? (unquoted segment) with
  | none =>
      have hkey : unquoted segment = [] := by simpa [hs] using hname
      rw [hkey] at hs
      simp [readNamed, hkey, hs]
  | some found =>
      obtain ⟨name, suffix⟩ := found
      rw [hs] at hname
      cases suffix <;> simp [readNamed, hs, hname]

theorem readSegment_eq_readNamed (opcode : String) {segment : List Char}
    (hrun : isRun segment = false) : readSegment opcode segment = readNamed opcode segment := by
  unfold isRun at hrun
  simp only [readSegment, hrun, Bool.false_eq_true, if_false]

/-- A segment that is a field is read as what it spells. -/
theorem readSegment_spells (opcode : String) {segment : List Char} (h : isField segment = true) :
    ∃ content width, (readSegment opcode segment).1 = some (content, width) ∧
      Spells segment content width := by
  cases hrun : isRun segment with
  | true =>
      refine ⟨_, _, ?_, .run hrun⟩
      unfold isRun at hrun
      simp only [readSegment, hrun, if_true]
  | false =>
      have hname : nameIn segment ≠ [] := by simpa [isField, hrun] using h
      rw [readSegment_eq_readNamed opcode hrun]
      exact readNamed_spells opcode hrun hname

theorem readSegment_nameless (opcode : String) {segment : List Char}
    (h : isField segment = false) :
    (readSegment opcode segment).1 = none ∧
      .emptyField opcode ∈ (readSegment opcode segment).2 := by
  simp only [isField, Bool.or_eq_false_iff, Bool.not_eq_false', List.isEmpty_iff] at h
  obtain ⟨hrun, hname⟩ := h
  rw [readSegment_eq_readNamed opcode hrun]
  exact readNamed_nameless opcode hname

/-- The fields of a text, before they are placed, are what its segments spell, in
the order of the segments. -/
theorem spells_readings (opcode : String) (segments : List (List Char)) :
    List.Forall₂ (fun segment part => Spells segment part.1 part.2) (segments.filter isField)
      (segments.filterMap fun segment => (readSegment opcode segment).1) := by
  induction segments with
  | nil => exact .nil
  | cons segment segments ih =>
      cases h : isField segment with
      | true =>
          obtain ⟨content, width, hread, hspells⟩ := readSegment_spells opcode h
          simp only [List.filter_cons_of_pos h, List.filterMap_cons, hread]
          exact .cons hspells ih
      | false =>
          have hread := (readSegment_nameless opcode h).1
          simpa only [List.filter_cons, h, Bool.false_eq_true, if_false, List.filterMap_cons,
            hread] using ih

end BitTemplate

end InstrTable
