import InstrTable.Dictionaries
import InstrTable.Proofs.Keyed
import InstrTable.Proofs.Row.Aliases
import InstrTable.Proofs.Schema.Acceptance
import InstrTable.TableFile

/-!
What is read from a table document. A document that has the shape of a table gives its
dictionaries and its instructions, whatever it holds; any other is refused with one message, in
the same way for both. The validator that tells the ones from the others is not fixed.
-/

namespace InstrTable

namespace Document

/-- The text under a key. -/
def textAt? (d : Document) (key : String) : Option String := (d.field? key).bind text?

/-- The items of the list under a key, of which there are none if the key is absent. -/
def itemsAt (d : Document) (key : String) : List Document := ((d.field? key).bind list?).getD []

/-- The entries of the map under a key. -/
def entriesAt (d : Document) (key : String) : List (Scalar × Document) :=
  ((d.field? key).bind map?).getD []

end Document

/-! ### What entries give -/

/-- Entries with names, each of which gives a value: a table has the name of every entry, in the
order in which the names first come, with a value that the last entry of that name gives. -/
structure Tabulates {α : Type} (items : List Document) (gives : Document → α → Prop)
    (t : Keyed α) : Prop where
  keys : t.keys = (items.filterMap (·.textAt? "name")).eraseDups
  last : ∀ name value, t.get? name = some value →
    ∃ x, (items.filter fun x => x.textAt? "name" = some name).getLast? = some x ∧ gives x value

def Extension.IsGivenBy (x : Document) (e : Extension) : Prop :=
  x.textAt? "name" = some e.name ∧ e.base = (x.textAt? "from").getD ""

def Attribute.IsGivenBy (x : Document) (a : Attribute) : Prop :=
  x.textAt? "name" = some a.name ∧ x.textAt? "type" = some a.kind.name ∧
    a.doc = (x.textAt? "doc").getD ""

def SpecialRegister.IsGivenBy (x : Document) (r : SpecialRegister) : Prop :=
  x.textAt? "name" = some r.name ∧ r.group = (x.textAt? "group").getD r.name ∧
    r.doc = (x.textAt? "doc").getD ""

def Shortcut.IsGivenBy (x : Document) (s : Shortcut) : Prop :=
  x.textAt? "name" = some s.name ∧ x.textAt? "expand" = some s.expansion ∧
    s.doc = (x.textAt? "doc").getD ""

/-- A type of registers is given with its name. -/
def RegisterClass.IsGivenBy (e : Scalar × Document) (c : Scalar × RegisterClass) : Prop :=
  c.1 = e.1 ∧ c.2.kind = (e.2.textAt? "kind").map .text ∧ c.2.any = (e.2.textAt? "any").getD "" ∧
    List.Forall₂ (fun x name => x.text? = some name) (e.2.itemsAt "names") c.2.names

/-- The dictionaries that a table document gives. -/
structure Dictionaries.IsGivenBy (d : Document) (D : Dictionaries) : Prop where
  dialect : d.textAt? "dialect" = some D.dialect.name
  architectures : List.Forall₂ (fun x name => x.text? = some name) (d.itemsAt "architectures")
    D.architectures
  cpuLevels : List.Forall₂ (fun x name => x.textAt? "name" = some name) (d.itemsAt "cpu_levels")
    D.cpuLevels
  extensions : Tabulates (d.itemsAt "extensions") Extension.IsGivenBy D.extensions
  attributes : Tabulates (d.itemsAt "attributes") Attribute.IsGivenBy D.attributes
  specialRegisters : Tabulates (d.itemsAt "special_regs") SpecialRegister.IsGivenBy
    D.specialRegisters
  shortcuts : Tabulates (d.itemsAt "shortcuts") Shortcut.IsGivenBy D.shortcuts
  registers : ∃ types, List.Forall₂ RegisterClass.IsGivenBy (d.entriesAt "registers") types ∧
    D.registers = registerTable types

/-! ### Lists that are read item by item -/

theorem exists_mapM {α β : Type} {f : α → Option β} {P : α → β → Prop} {xs : List α}
    (h : ∀ x ∈ xs, ∃ y, f x = some y ∧ P x y) :
    ∃ ys, xs.mapM f = some ys ∧ List.Forall₂ P xs ys := by
  induction xs with
  | nil => exact ⟨[], rfl, .nil⟩
  | cons x xs ih =>
      obtain ⟨⟨y, hy, hP⟩, hxs⟩ := List.forall_mem_cons.mp h
      obtain ⟨ys, hys, hall⟩ := ih hxs
      exact ⟨y :: ys, by simp [hy, hys], .cons hP hall⟩

theorem forall₂_filter {α β : Type} {P : α → β → Prop} {p : α → Bool} {q : β → Bool}
    (hpq : ∀ x y, P x y → p x = q y) {xs : List α} {ys : List β} (h : List.Forall₂ P xs ys) :
    List.Forall₂ P (xs.filter p) (ys.filter q) := by
  induction h with
  | nil => exact .nil
  | @cons x y xs ys hP _ ih =>
      rw [List.filter_cons, List.filter_cons, hpq x y hP]
      split
      · exact .cons hP ih
      · exact ih

theorem exists_getLast?_of_forall₂ {α β : Type} {P : α → β → Prop} {xs : List α} {ys : List β}
    (h : List.Forall₂ P xs ys) {y : β} (hy : ys.getLast? = some y) :
    ∃ x, xs.getLast? = some x ∧ P x y := by
  rw [← List.head?_reverse] at hy ⊢
  have hreverse := List.rel_reverse h
  generalize xs.reverse = xs', ys.reverse = ys' at hreverse hy
  cases hreverse with
  | nil => simp at hy
  | @cons x y' _ _ hP _ =>
      obtain rfl : y' = y := by simpa using hy
      exact ⟨x, rfl, hP⟩

/-- Items that are kept under their names are tabulated. -/
theorem tabulates_byName {α : Type} {gives : Document → α → Prop} {name : α → String}
    (hname : ∀ x value, gives x value → x.textAt? "name" = some (name value))
    {items : List Document} {values : List α} (h : List.Forall₂ gives items values) :
    Tabulates items gives (Dictionaries.byName name values) := by
  constructor
  case keys =>
    rw [Dictionaries.byName, Keyed.keys_ofList, List.map_map]
    congr 1
    induction h with
    | nil => rfl
    | cons hgives _ ih => simp [hname _ _ hgives, ← ih]
  case last =>
    intro key value hvalue
    rw [Dictionaries.byName, Keyed.get?_ofList, List.filter_map, List.getLast?_map,
      Option.map_map] at hvalue
    have hlast : (values.filter fun v => name v = key).getLast? = some value := by
      simpa [Function.comp_def] using hvalue
    refine exists_getLast?_of_forall₂ (forall₂_filter (fun x v hgives => ?_) h) hlast
    rw [hname x v hgives]
    simp

theorem Document.text?_eq_some_iff {d : Document} {s : String} :
    d.text? = some s ↔ d = .scalar (.text s) := by
  unfold text?
  split <;> simp_all

namespace Schema

variable {fields : List (String × Bool × Schema)} {item schema : Schema} {size : Option Nat}
  {choices : List String} {nonEmpty isRequired : Bool} {d : Document} {name : String}

/-! ### Parts of an accepted record -/

theorem Accepts.lookup (h : Accepts (.record fields) d) : ∃ entries, d.map? = some entries ∧
    (∀ f ∈ fields, f.2.1 = true → ∃ v, d.field? f.1 = some v) ∧
    ∀ f ∈ fields, ∀ v, d.field? f.1 = some v → Accepts f.2.2 v := by
  cases h with
  | @record _ _ entries hmap hrequired hvalues _ =>
      have hfield (name : String) : d.field? name = entries.lookup (.text name) := by
        simp [Document.field?, hmap]
      simp only [hfield]
      exact ⟨entries, hmap, hrequired, hvalues⟩

theorem Accepts.text? (h : Accepts (.text choices nonEmpty) d) :
    ∃ s, d.text? = some s ∧ (choices = [] ∨ s ∈ choices) := by
  cases h with
  | text htext hchoice _ => exact ⟨_, htext, hchoice⟩

/-- A field for texts is absent or has a text. -/
theorem Accepts.field?_text (h : Accepts (.record fields) d)
    (hmem : (name, isRequired, .text choices nonEmpty) ∈ fields) :
    d.field? name = none ∨ ∃ s, d.field? name = some (.scalar (.text s)) ∧
      (choices = [] ∨ s ∈ choices) := by
  obtain ⟨_, -, -, hvalues⟩ := h.lookup
  cases hv : d.field? name with
  | none => exact .inl rfl
  | some v =>
      obtain ⟨s, hs, hchoice⟩ := (hvalues _ hmem v hv).text?
      obtain rfl := Document.text?_eq_some_iff.mp hs
      exact .inr ⟨s, rfl, hchoice⟩

/-- A record has the text of a required field. -/
theorem Accepts.exists_text (h : Accepts (.record fields) d)
    (hmem : (name, true, .text choices nonEmpty) ∈ fields) :
    ∃ s, d.field? name = some (.scalar (.text s)) ∧ d.textAt? name = some s ∧
      (choices = [] ∨ s ∈ choices) := by
  obtain ⟨_, -, hrequired, -⟩ := h.lookup
  obtain ⟨v, hv⟩ := hrequired _ hmem rfl
  obtain hnone | ⟨s, hs, hchoice⟩ := h.field?_text hmem
  · simp [hv] at hnone
  · exact ⟨s, hs, by simp [Document.textAt?, hs, Document.text?], hchoice⟩

/-- Where a text is absent, its default counts. -/
theorem Accepts.exists_textOr (h : Accepts (.record fields) d)
    (hmem : (name, isRequired, .text choices nonEmpty) ∈ fields) (fallback : String) :
    ∃ s, d.textOr? name fallback = some s ∧ s = (d.textAt? name).getD fallback := by
  unfold Document.textOr? Document.textAt?
  obtain hnone | ⟨s, hs, -⟩ := h.field?_text hmem
  · exact ⟨fallback, by rw [hnone], by rw [hnone]; rfl⟩
  · exact ⟨s, by rw [hs]; rfl, by rw [hs]; rfl⟩

/-- If every accepted item gives something, so do the items of a field, in order. -/
theorem Accepts.exists_items {α : Type} (h : Accepts (.record fields) d)
    (hmem : (name, isRequired, .list item size) ∈ fields) {f : Document → Option α}
    {P : Document → α → Prop} (hf : ∀ x, Accepts item x → ∃ y, f x = some y ∧ P x y) :
    d.itemsOf? name = some (d.itemsAt name) ∧
      ∃ ys, (d.itemsAt name).mapM f = some ys ∧ List.Forall₂ P (d.itemsAt name) ys := by
  obtain ⟨_, -, -, hvalues⟩ := h.lookup
  have hitems : d.itemsOf? name = some (d.itemsAt name) ∧ ∀ x ∈ d.itemsAt name, Accepts item x := by
    unfold Document.itemsOf? Document.itemsAt
    cases hv : d.field? name with
    | none => simp
    | some v =>
        cases hvalues _ hmem v hv with
        | list hlist hitems _ => simpa [hlist] using hitems
  exact ⟨hitems.1, exists_mapM fun x hx => hf x (hitems.2 x hx)⟩

end Schema

/-! ### Entries of dictionaries -/

open Schema (Accepts required optional)

variable {x : Document}

theorem Extension.exists_of_accepts (h : Accepts (.record [required "name" (.text [] false),
    optional "from" (.text [] false)]) x) :
    ∃ e, ofDocument? x = some e ∧ IsGivenBy x e := by
  obtain ⟨name, hfield, hname, -⟩ := h.exists_text (.head _)
  obtain ⟨base, hbase, hfrom⟩ := h.exists_textOr (.tail _ (.head _)) ""
  exact ⟨⟨name, base⟩, by simp [ofDocument?, hfield, Document.text?, hbase], hname, hfrom⟩

theorem AttributeKind.exists_ofName? {s : String} (h : s ∈ ["flag", "string", "string[]"]) :
    ∃ kind, ofName? s = some kind ∧ kind.name = s := by
  simp only [List.mem_cons, List.not_mem_nil, or_false] at h
  obtain rfl | rfl | rfl := h
  · exact ⟨.flag, rfl, rfl⟩
  · exact ⟨.text, rfl, rfl⟩
  · exact ⟨.texts, rfl, rfl⟩

theorem Attribute.exists_of_accepts (h : Accepts (.record [required "name" (.text [] false),
    required "type" (.text ["flag", "string", "string[]"] false),
    optional "doc" (.text [] false)]) x) :
    ∃ a, ofDocument? x = some a ∧ IsGivenBy x a := by
  obtain ⟨name, hfield, hname, -⟩ := h.exists_text (.head _)
  obtain ⟨s, hfield', htype, hchoice⟩ := h.exists_text (.tail _ (.head _))
  obtain ⟨kind, hkind, rfl⟩ := AttributeKind.exists_ofName? (hchoice.resolve_left (by simp))
  obtain ⟨doc, hdoc, hgiven⟩ := h.exists_textOr (.tail _ (.tail _ (.head _))) ""
  exact ⟨⟨name, kind, doc⟩, by simp [ofDocument?, hfield, hfield', Document.text?, hkind, hdoc],
    hname, htype, hgiven⟩

theorem SpecialRegister.exists_of_accepts (h : Accepts (.record
    [required "name" (.text [] false), optional "group" (.text [] false),
      optional "doc" (.text [] false)]) x) :
    ∃ r, ofDocument? x = some r ∧ IsGivenBy x r := by
  obtain ⟨name, hfield, hname, -⟩ := h.exists_text (.head _)
  obtain ⟨group, hgroup, hpart⟩ := h.exists_textOr (.tail _ (.head _)) name
  obtain ⟨doc, hdoc, hgiven⟩ := h.exists_textOr (.tail _ (.tail _ (.head _))) ""
  exact ⟨⟨name, group, doc⟩, by simp [ofDocument?, hfield, Document.text?, hgroup, hdoc],
    hname, hpart, hgiven⟩

theorem Shortcut.exists_of_accepts (h : Accepts (.record [required "name" (.text [] true),
    required "expand" (.text [] true), optional "doc" (.text [] false)]) x) :
    ∃ s, ofDocument? x = some s ∧ IsGivenBy x s := by
  obtain ⟨name, hfield, hname, -⟩ := h.exists_text (.head _)
  obtain ⟨expansion, hfield', hexpansion, -⟩ := h.exists_text (.tail _ (.head _))
  obtain ⟨doc, hdoc, hgiven⟩ := h.exists_textOr (.tail _ (.tail _ (.head _))) ""
  exact ⟨⟨name, expansion, doc⟩, by simp [ofDocument?, hfield, hfield', Document.text?, hdoc],
    hname, hexpansion, hgiven⟩

/-- The texts of an accepted list of texts. -/
theorem Schema.Accepts.exists_texts {choices : List String} {nonEmpty : Bool} {size : Option Nat}
    (h : Accepts (.list (.text choices nonEmpty) size) x) :
    ∃ items names, x.list? = some items ∧ x.texts? = some names ∧
      List.Forall₂ (fun y name => y.text? = some name) items names ∧
      ∀ n ∈ size, names.length = n := by
  cases h with
  | @list _ _ _ items hlist hitems hsize =>
      obtain ⟨names, hnames, hall⟩ := exists_mapM fun y hy =>
        let ⟨name, hname, _⟩ := (hitems y hy).text?
        ⟨name, hname, hname⟩
      exact ⟨items, names, hlist, by simp [Document.texts?, hlist, hnames], hall,
        fun n hn => hall.length_eq ▸ hsize n hn⟩

theorem RegisterClass.exists_of_accepts (h : Accepts (.record [optional "kind" (.text [] false),
    optional "any" (.text [] false), required "names" (.list (.text [] false) none)]) x)
    (type : Scalar) :
    ∃ c, ofDocument? x = some c ∧ IsGivenBy (type, x) (type, c) := by
  obtain ⟨_, -, hrequired, hvalues⟩ := h.lookup
  obtain ⟨v, hnames⟩ : ∃ v, x.field? "names" = some v :=
    hrequired _ (.tail _ (.tail _ (.head _))) rfl
  obtain ⟨items, names, hlist, htexts, hall, -⟩ :=
    (hvalues _ (.tail _ (.tail _ (.head _))) v hnames).exists_texts
  refine ⟨⟨(x.textAt? "kind").map .text, (x.textAt? "any").getD "", names⟩, ?_, rfl, rfl, rfl, ?_⟩
  · unfold ofDocument? Document.textAt?
    obtain hkind | ⟨kind, hkind, -⟩ := h.field?_text (.head _) <;>
      obtain hany | ⟨any, hany, -⟩ := h.field?_text (.tail _ (.head _))
    case inl.inl | inr.inl =>
      simp [hkind, hany, hnames, htexts, Document.text?, Document.scalar?]
    case inl.inr | inr.inr =>
      -- an empty text says nothing, and nothing is read as the empty text
      by_cases hempty : any = "" <;>
        simp [hkind, hany, hnames, htexts, hempty, Document.text?, Document.scalar?,
          Document.saysNothing]
  · simpa [Document.itemsAt, hnames, hlist] using hall

theorem Dialect.exists_ofName? {s : String} (h : s ∈ ["x86", "arm"]) :
    ∃ dialect, ofName? s = some dialect ∧ dialect.name = s := by
  simp only [List.mem_cons, List.not_mem_nil, or_false] at h
  obtain rfl | rfl := h
  · exact ⟨.x86, rfl, rfl⟩
  · exact ⟨.arm, rfl, rfl⟩

/-! ### Table documents -/

variable {d : Document}

/-- The types of registers that a table document gives, of which there may be none. -/
theorem RegisterClass.exists_types (h : Table.schema.Accepts d) :
    ∃ types, List.Forall₂ IsGivenBy (d.entriesAt "registers") types ∧
      (d.field? "registers" = none ∧ types = [] ∨
        ∃ v, d.field? "registers" = some v ∧ table? v = some types) := by
  obtain ⟨_, -, -, hvalues⟩ := h.lookup
  unfold Document.entriesAt
  cases hv : d.field? "registers" with
  | none => exact ⟨[], .nil, .inl ⟨rfl, rfl⟩⟩
  | some v =>
      have haccepts := hvalues _ (List.mem_of_getElem? (i := 7) rfl) v hv
      cases haccepts with
      | @table _ _ entries hmap hall =>
          obtain ⟨types, htypes, hgiven⟩ := exists_mapM (P := IsGivenBy)
            (f := fun e => (ofDocument? e.2).map fun c => (e.1, c)) fun e he =>
              let ⟨c, hc, hgiven⟩ := exists_of_accepts (hall e he) e.1
              ⟨(e.1, c), by simp [hc], hgiven⟩
          exact ⟨types, by simpa [hmap] using hgiven, .inr ⟨v, rfl, by simp [table?, hmap, htypes]⟩⟩

/-- The dictionaries of a table document can be read. -/
theorem Dictionaries.exists_read (h : Table.schema.Accepts d) :
    ∃ D, read? d = some D ∧ D.IsGivenBy d := by
  obtain ⟨s, hfield, hname, hchoice⟩ := h.exists_text (.head _)
  obtain ⟨dialect, hdialect, rfl⟩ := Dialect.exists_ofName? (hchoice.resolve_left (by simp))
  obtain ⟨hitems₁, architectures, hmapM₁, harchitectures⟩ :=
    h.exists_items (List.mem_of_getElem? (i := 1) rfl) (P := fun x name => x.text? = some name)
      fun x hx => let ⟨name, hname, _⟩ := hx.text?; ⟨name, hname, hname⟩
  obtain ⟨hitems₂, cpuLevels, hmapM₂, hcpuLevels⟩ :=
    h.exists_items (List.mem_of_getElem? (i := 2) rfl)
      (f := fun x => (x.field? "name").bind Document.text?)
      (P := fun x name => x.textAt? "name" = some name)
      fun x hx => let ⟨name, _, hname, _⟩ := hx.exists_text (.head _); ⟨name, hname, hname⟩
  obtain ⟨hitems₃, extensions, hmapM₃, hextensions⟩ :=
    h.exists_items (List.mem_of_getElem? (i := 3) rfl) fun _ => Extension.exists_of_accepts
  obtain ⟨hitems₄, attributes, hmapM₄, hattributes⟩ :=
    h.exists_items (List.mem_of_getElem? (i := 4) rfl) fun _ => Attribute.exists_of_accepts
  obtain ⟨hitems₅, specialRegisters, hmapM₅, hspecialRegisters⟩ :=
    h.exists_items (List.mem_of_getElem? (i := 5) rfl) fun _ => SpecialRegister.exists_of_accepts
  obtain ⟨hitems₆, shortcuts, hmapM₆, hshortcuts⟩ :=
    h.exists_items (List.mem_of_getElem? (i := 6) rfl) fun _ => Shortcut.exists_of_accepts
  obtain ⟨types, hgiven, hregisters⟩ := RegisterClass.exists_types h
  refine ⟨⟨dialect, architectures, cpuLevels, byName (·.name) extensions,
    byName (·.name) attributes, byName (·.name) specialRegisters, byName (·.name) shortcuts,
    registerTable types⟩, ?_, ?_⟩
  · obtain ⟨hv, rfl⟩ | ⟨v, hv, htypes⟩ := hregisters
    all_goals
      simp [read?, hv, hfield, Document.text?, hdialect, hitems₁, hmapM₁, hitems₂, hmapM₂, hitems₃,
        hmapM₃, hitems₄, hmapM₄, hitems₅, hmapM₅, hitems₆, hmapM₆]
    · rfl
    · simp [htypes]
  · constructor
    case dialect => exact hname
    case architectures => exact harchitectures
    case cpuLevels => exact hcpuLevels
    case extensions => exact tabulates_byName (fun _ _ hgives => hgives.1) hextensions
    case attributes => exact tabulates_byName (fun _ _ hgives => hgives.1) hattributes
    case specialRegisters =>
      exact tabulates_byName (fun _ _ hgives => hgives.1) hspecialRegisters
    case shortcuts => exact tabulates_byName (fun _ _ hgives => hgives.1) hshortcuts
    case registers => exact ⟨types, hgiven, rfl⟩

/-- Whether a validator finds nothing wrong just with the documents that a schema accepts. -/
def Validator.Decides (validate : Validator) (schema : Schema) : Prop :=
  ∀ d, validate d = none ↔ schema.Accepts d

namespace Table

theorem validator_decides : validator.Decides schema := fun d => by
  rw [validator, Option.map_eq_none_iff, Schema.check_eq_none_iff]

/-- The instructions of a table document can be read. -/
theorem exists_entries (h : schema.Accepts d) : ∃ entries, readEntries? d = some entries ∧
    List.Forall₂ (fun row e => row.texts? = some e.fields) (d.itemsAt "instructions") entries := by
  obtain ⟨hitems, entries, hmapM, hentries⟩ := h.exists_items (List.mem_of_getElem? (i := 8) rfl)
    (f := fun row => row.texts?.bind Entry.ofFields?)
    (P := fun row e => row.texts? = some e.fields) fun row hrow => by
      obtain ⟨_, fields, -, htexts, -, hlength⟩ := hrow.exists_texts
      match fields, hlength 5 rfl with
      | [name, operands, encoding, opcode, metadata], _ =>
        exact ⟨⟨name, operands, encoding, opcode, metadata⟩, by simp [htexts, Entry.ofFields?],
          htexts⟩
  exact ⟨entries, by simp [readEntries?, hitems, hmapM], hentries⟩

end Table

end InstrTable
