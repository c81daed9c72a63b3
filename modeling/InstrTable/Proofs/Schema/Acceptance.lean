import InstrTable.Schema
import Mathlib.Data.List.Basic

/-!
What a schema accepts. A document has no violation of a schema just where each of its parts has
the shape that the schema asks for in its place.
-/

namespace InstrTable

namespace Schema

/-- Whether a document has the shape that a schema describes. -/
inductive Accepts : Schema → Document → Prop where
  /-- A text, which is one of the choices if there are any. -/
  | text {choices : List String} {nonEmpty : Bool} {d : Document} {s : String} :
    d.text? = some s → (choices = [] ∨ s ∈ choices) → (nonEmpty = true → s ≠ "") →
    Accepts (.text choices nonEmpty) d
  /-- A list of accepted items, as many as are asked for. -/
  | list {item : Schema} {size : Option Nat} {d : Document} {items : List Document} :
    d.list? = some items → (∀ x ∈ items, Accepts item x) → (∀ n ∈ size, items.length = n) →
    Accepts (.list item size) d
  /-- A map that has all required fields and no key that is no field. The value of a field, if
  it has one, is accepted. -/
  | record {fields : List (String × Bool × Schema)} {d : Document}
    {entries : List (Scalar × Document)} :
    d.map? = some entries →
    (∀ f ∈ fields, f.2.1 = true → ∃ v, entries.lookup (.text f.1) = some v) →
    (∀ f ∈ fields, ∀ v, entries.lookup (.text f.1) = some v → Accepts f.2.2 v) →
    (∀ e ∈ entries, ∃ f ∈ fields, e.1 = .text f.1) →
    Accepts (.record fields) d
  /-- A map with any keys, whose values are accepted. -/
  | table {value : Schema} {d : Document} {entries : List (Scalar × Document)} :
    d.map? = some entries → (∀ e ∈ entries, Accepts value e.2) → Accepts (.table value) d

variable {choices : List String} {nonEmpty : Bool} {item value : Schema} {size : Option Nat}
  {fields : List (String × Bool × Schema)} {entries : List (Scalar × Document)} {d : Document}

/-! ### A document of the kind that a schema is for -/

theorem accepts_text_iff {s : String} (h : d.text? = some s) :
    Accepts (.text choices nonEmpty) d ↔
      (choices = [] ∨ s ∈ choices) ∧ (nonEmpty = true → s ≠ "") := by
  constructor
  · intro haccepts
    cases haccepts with
    | text htext hchoice hne =>
        obtain rfl := Option.some.inj (htext.symm.trans h)
        exact ⟨hchoice, hne⟩
  · exact fun ⟨hchoice, hne⟩ => .text h hchoice hne

theorem accepts_list_iff {items : List Document} (h : d.list? = some items) :
    Accepts (.list item size) d ↔
      (∀ x ∈ items, Accepts item x) ∧ ∀ n ∈ size, items.length = n := by
  constructor
  · intro haccepts
    cases haccepts with
    | list hlist hitems hsize =>
        obtain rfl := Option.some.inj (hlist.symm.trans h)
        exact ⟨hitems, hsize⟩
  · exact fun ⟨hitems, hsize⟩ => .list h hitems hsize

theorem accepts_record_iff (h : d.map? = some entries) :
    Accepts (.record fields) d ↔
      (∀ f ∈ fields, f.2.1 = true → ∃ v, entries.lookup (.text f.1) = some v) ∧
      (∀ f ∈ fields, ∀ v, entries.lookup (.text f.1) = some v → Accepts f.2.2 v) ∧
      ∀ e ∈ entries, ∃ f ∈ fields, e.1 = .text f.1 := by
  constructor
  · intro haccepts
    cases haccepts with
    | record hmap hrequired hvalues hkeys =>
        obtain rfl := Option.some.inj (hmap.symm.trans h)
        exact ⟨hrequired, hvalues, hkeys⟩
  · exact fun ⟨hrequired, hvalues, hkeys⟩ => .record h hrequired hvalues hkeys

theorem accepts_table_iff (h : d.map? = some entries) :
    Accepts (.table value) d ↔ ∀ e ∈ entries, Accepts value e.2 := by
  constructor
  · intro haccepts
    cases haccepts with
    | table hmap hvalues =>
        obtain rfl := Option.some.inj (hmap.symm.trans h)
        exact hvalues
  · exact .table h

/-! ### Violations -/

theorem textFaults_eq_nil_iff :
    textFaults choices nonEmpty d = [] ↔ Accepts (.text choices nonEmpty) d := by
  cases htext : d.text? with
  | none =>
      simp only [textFaults, htext, reduceCtorEq, false_iff]
      rintro ⟨htext', -, -⟩
      simp [htext] at htext'
  | some s =>
      rw [accepts_text_iff htext]
      simp [textFaults, htext, or_iff_not_imp_left, and_comm]

theorem sizeFaults_eq_nil_iff {length : Nat} :
    sizeFaults size d length = [] ↔ ∀ n ∈ size, length = n := by
  cases size with
  | none => simp [sizeFaults]
  | some n =>
      simp only [sizeFaults, Option.mem_def, Option.some.injEq, forall_eq']
      split_ifs <;> simp <;> omega

theorem mem_keys_iff {key : Scalar} :
    key ∈ entries.map Prod.fst ↔ ∃ v, entries.lookup key = some v := by
  rw [← Option.isSome_iff_exists, List.lookup_isSome_iff, List.mem_map]
  exact exists_congr fun e => and_congr_right fun _ => by rw [beq_iff_eq, eq_comm]

theorem missingFields_eq_nil_iff :
    missingFields fields entries = [] ↔
      ∀ f ∈ fields, f.2.1 = true → ∃ v, entries.lookup (.text f.1) = some v := by
  simp only [missingFields, List.map_eq_nil_iff, List.filter_eq_nil_iff, ← mem_keys_iff]
  simp

theorem unexpectedKeys_eq_nil_iff :
    unexpectedKeys fields entries = [] ↔ ∀ e ∈ entries, ∃ f ∈ fields, e.1 = .text f.1 := by
  rw [← List.length_eq_zero_iff, unexpectedKeys, List.length_mergeSort, List.length_eq_zero_iff,
    List.filter_eq_nil_iff, List.forall_mem_map]
  refine forall₂_congr fun e _ => ?_
  simp only [Bool.not_eq_true', Bool.not_eq_false, List.contains_iff_mem, List.mem_map]
  exact exists_congr fun f => and_congr_right fun _ => eq_comm

mutual

/-- A document has no violation of a schema just where the schema accepts it. -/
theorem violations_eq_nil_iff : ∀ (schema : Schema) (d : Document),
    violations schema d = [] ↔ Accepts schema d
  | .text choices nonEmpty, d => by
    rw [violations, List.map_eq_nil_iff, textFaults_eq_nil_iff]
  | .list item size, d => by
    have hitem (x : Document) := violations_eq_nil_iff item x
    cases hlist : d.list? with
    | none =>
        simp only [violations, hlist, reduceCtorEq, false_iff]
        rintro ⟨⟩
        simp_all
    | some items =>
        have hzip : (∀ x ∈ items.zipIdx, violations item x.1 = []) ↔
            ∀ x ∈ items, Accepts item x := by
          conv_rhs => rw [← List.zipIdx_map_fst 0 items, List.forall_mem_map]
          exact forall₂_congr fun x _ => hitem x.1
        rw [accepts_list_iff hlist, violations, hlist]
        simp only [List.append_eq_nil_iff, List.flatMap_eq_nil_iff, List.map_eq_nil_iff, hzip,
          sizeFaults_eq_nil_iff]
  | .record fields, d => by
    have hfields := fieldViolations_eq_nil_iff fields
    cases hmap : d.map? with
    | none =>
        simp only [violations, hmap, reduceCtorEq, false_iff]
        rintro ⟨⟩
        simp_all
    | some entries =>
        rw [accepts_record_iff hmap, violations, hmap, ← unexpectedKeys_eq_nil_iff]
        simp only [List.append_eq_nil_iff, List.map_eq_nil_iff, missingFields_eq_nil_iff, hfields,
          and_assoc]
        cases unexpectedKeys fields entries <;> simp
  | .table value, d => by
    have hvalue (x : Document) := violations_eq_nil_iff value x
    cases hmap : d.map? with
    | none =>
        simp only [violations, hmap, reduceCtorEq, false_iff]
        rintro ⟨⟩
        simp_all
    | some entries =>
        rw [accepts_table_iff hmap, violations, hmap]
        simp only [List.flatMap_eq_nil_iff, List.map_eq_nil_iff, hvalue]

theorem fieldViolations_eq_nil_iff : ∀ (fields : List (String × Bool × Schema))
    (entries : List (Scalar × Document)), fieldViolations fields entries = [] ↔
      ∀ f ∈ fields, ∀ v, entries.lookup (.text f.1) = some v → Accepts f.2.2 v
  | [], _ => by simp [fieldViolations]
  | (name, isRequired, schema) :: fields, entries => by
    have hschema (x : Document) := violations_eq_nil_iff schema x
    have hfields := fieldViolations_eq_nil_iff fields entries
    rw [fieldViolations, List.append_eq_nil_iff, hfields, List.forall_mem_cons]
    cases hvalue : entries.lookup (.text name) with
    | none => simp
    | some v => simp [hschema]

end

instance (schema : Schema) (d : Document) : Decidable (Accepts schema d) :=
  decidable_of_iff _ (violations_eq_nil_iff schema d)

/-! ### The violation that is reported -/

theorem Violation.foremost?_eq_none_iff {vs : List Violation} :
    Violation.foremost? vs = none ↔ vs = [] := by
  cases vs <;> simp [Violation.foremost?]

/-- A violation is reported just where the schema does not accept the document. -/
theorem check_eq_none_iff {schema : Schema} : check schema d = none ↔ Accepts schema d :=
  Violation.foremost?_eq_none_iff.trans (violations_eq_nil_iff schema d)

end Schema

end InstrTable
