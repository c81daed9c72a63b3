import InstrTable.Proofs.ByteOpcode.Markers
import InstrTable.Proofs.ByteOpcode.Share
import InstrTable.Proofs.ByteOpcode.WellFormed

/-!
What a text with a vector prefix says. The parts of the prefix are of kinds that have nothing in
common, and so are the components behind it. Of each kind the last one counts, and what is of no
kind is reported each time it is written.
-/

namespace InstrTable

/-- The last of some components that are of a kind. -/
def lastOf (kind : String → Bool) (components : List String) : Option String :=
  (components.filter kind).getLast?

theorem lastOf_cons (kind : String → Bool) (component : String) (components : List String) :
    lastOf kind (component :: components) =
      (lastOf kind components).or (if kind component then some component else none) := by
  unfold lastOf
  by_cases h : kind component = true
  · rw [List.filter_cons_of_pos h, List.getLast?_cons, if_pos h]
    cases (components.filter kind).getLast? <;> rfl
  · simp [h]

theorem lastOf_eq_none_iff {kind : String → Bool} {components : List String} :
    lastOf kind components = none ↔ components.any kind = false := by
  simp [lastOf]

namespace ByteOpcode

section Run

variable {step : ByteOpcode → String → ByteOpcode × List Diagnostic} {components : List String}

/-- A field that the components of one kind write, and that no other component changes, holds what
the last of them wrote. -/
theorem field_run {β : Type} (field : ByteOpcode → β) (kind : String → Bool) (value : String → β)
    (hstep : ∀ op, ∀ component ∈ components,
      field (step op component).1 = if kind component then value component else field op)
    (op : ByteOpcode) :
    field (run step op components).1 = ((lastOf kind components).map value).getD (field op) := by
  induction components generalizing op with
  | nil => rfl
  | cons component components ih =>
      have hfirst := hstep op component List.mem_cons_self
      have hrest := ih (fun op c hc => hstep op c (List.mem_cons_of_mem _ hc)) (step op component).1
      rw [run_cons, hrest, hfirst, lastOf_cons]
      cases lastOf kind components with
      | some last => rfl
      | none => by_cases h : kind component = true <;> simp [h]

/-- The components of no known kind are reported, in their order. -/
theorem reports_run {kind : String → Bool} {report : String → String → Diagnostic}
    (htext : ∀ op component, (step op component).1.text = op.text)
    (hstep : ∀ op, ∀ component ∈ components,
      (step op component).2 = if kind component then [] else [report op.text component])
    (op : ByteOpcode) :
    (run step op components).2 = (components.filter (!kind ·)).map (report op.text) := by
  induction components generalizing op with
  | nil => rfl
  | cons component components ih =>
      have hfirst := hstep op component List.mem_cons_self
      have hrest := ih (fun op c hc => hstep op c (List.mem_cons_of_mem _ hc)) (step op component).1
      rw [run_cons, hrest, hfirst, htext]
      by_cases h : kind component = true <;> simp [h]

end Run

end ByteOpcode

open ByteOpcode (read run run_keeps field_run reports_run)

namespace Vector

/-! ### The parts of a prefix -/

/-- The kinds of parts. -/
inductive PartKind where
  | prefixClass
  | operand
  | length
  | noMandatory
  | mandatory
  | escapeMap
  | width
  deriving DecidableEq, Repr

namespace PartKind

def all : List PartKind :=
  [.prefixClass, .operand, .length, .noMandatory, .mandatory, .escapeMap, .width]

/-- The parts of a kind. -/
def members : PartKind → List String
  | .prefixClass => ["VEX", "XOP", "EVEX"]
  | .operand => ["NDS", "NDD", "DDS"]
  | .length => ["LIG", "128", "L0", "LZ", "256", "L1", "512"]
  | .noMandatory => ["P0"]
  | .mandatory => ["66", "F2", "F3"]
  | .escapeMap => ["0F", "0F3A", "0F38", "M8", "M9"]
  | .width => ["WIG", "W0", "W1"]

/-- The last part of a kind, and an empty text if there is none. -/
def last (k : PartKind) (parts : List String) : String :=
  (lastOf (· ∈ k.members) parts).getD ""

/-- What an opcode holds of a kind. Of the part that stands for no mandatory prefix, nothing. -/
def slot : PartKind → ByteOpcode → String
  | .prefixClass, op => op.prefixClass.name
  | .operand, op => op.vectorOperand
  | .length, op => op.vectorLength
  | .noMandatory, _ => ""
  | .mandatory, op => op.mandatory
  | .escapeMap, op => op.escapeMap
  | .width, op => op.width

end PartKind

/-- The vector length that a part stands for. -/
def lengthOf : String → String
  | "L0" | "LZ" => "128"
  | "L1" => "256"
  | part => part

/-- What is held of a part of a kind. -/
def PartKind.held : PartKind → String → String
  | .noMandatory, _ => ""
  | .length, part => lengthOf part
  | _, part => part

/-- The parts that have a meaning. -/
def knownParts : List String := PartKind.all.flatMap PartKind.members

theorem mem_knownParts_iff {component : String} :
    component ∈ knownParts ↔ ∃ k : PartKind, component ∈ k.members := by
  rw [knownParts, List.mem_flatMap]
  constructor
  · rintro ⟨k, -, h⟩
    exact ⟨k, h⟩
  · rintro ⟨k, h⟩
    exact ⟨k, by cases k <;> decide, h⟩

/-- No part is of two kinds. -/
theorem eq_of_mem_members {k k' : PartKind} {component : String} (h : component ∈ k.members)
    (h' : component ∈ k'.members) : k = k' := by
  have hall : ∀ k ∈ PartKind.all, ∀ k' ∈ PartKind.all, ∀ component ∈ k.members,
      component ∈ k'.members → k = k' := by decide
  exact hall k (by cases k <;> decide) k' (by cases k' <;> decide) component h h'

/-- What a part of a kind is read as. -/
def PartKind.part : PartKind → String → Part
  | .prefixClass, component => .prefixClass ((Part.prefixClass? component).getD .none)
  | .operand, component => .operand component
  | .length, component => .length (lengthOf component)
  | .noMandatory, _ => .noMandatory
  | .mandatory, component => .mandatory component
  | .escapeMap, component => .escapeMap component
  | .width, component => .width component

theorem partStep_of_mem {k : PartKind} {component : String} (h : component ∈ k.members)
    (op : ByteOpcode) : partStep op component = ((k.part component).apply op, []) := by
  have hall : ∀ k ∈ PartKind.all, ∀ component ∈ k.members,
      Part.ofComponent? component = some (k.part component) := by decide
  rw [partStep, hall k (by cases k <;> decide) component h]

theorem isSome_prefixClass?_iff {component : String} :
    (Part.prefixClass? component).isSome = true ↔ component ∈ PartKind.prefixClass.members := by
  unfold Part.prefixClass?
  split <;> simp_all [PartKind.members]

theorem isSome_length?_iff {component : String} :
    (Part.length? component).isSome = true ↔ component ∈ PartKind.length.members := by
  unfold Part.length?
  split <;> simp_all [PartKind.members]

theorem partStep_of_not_mem {component : String} (h : component ∉ knownParts) (op : ByteOpcode) :
    partStep op component = (op, [.unknownComponent op.text component]) := by
  have hkind (k : PartKind) : component ∉ k.members :=
    fun hk => h (mem_knownParts_iff.mpr ⟨k, hk⟩)
  have hclass : Part.prefixClass? component = none :=
    Option.not_isSome_iff_eq_none.mp (mt isSome_prefixClass?_iff.mp (hkind _))
  have hlength : Part.length? component = none :=
    Option.not_isSome_iff_eq_none.mp (mt isSome_length?_iff.mp (hkind _))
  have hoperand : component ∉ ["NDS", "NDD", "DDS"] := hkind .operand
  have hmandatory : component ∉ ["66", "F2", "F3"] := hkind .mandatory
  have hmap : component ∉ ["0F", "0F3A", "0F38", "M8", "M9"] := hkind .escapeMap
  have hwidth : component ∉ ["WIG", "W0", "W1"] := hkind .width
  have hnone : component ≠ "P0" := by
    rintro rfl
    exact hkind .noMandatory (by decide)
  simp only [partStep, Part.ofComponent?, hclass, hlength, hoperand, hmandatory, hmap, hwidth,
    hnone, if_false]

/-- A part fills the slot of its kind, and leaves the others alone. -/
theorem slot_apply {k : PartKind} {component : String} (h : component ∈ k.members)
    (op : ByteOpcode) (k' : PartKind) :
    k'.slot ((k.part component).apply op) =
      if component ∈ k'.members then k'.held component else k'.slot op := by
  by_cases hk : k' = k
  · subst hk
    rw [if_pos h]
    -- the class of a prefix is held as a value, and all else as it is written
    cases k' with
    | prefixClass =>
        have hall : ∀ component ∈ PartKind.members .prefixClass,
            ((Part.prefixClass? component).getD .none).name = component := by decide
        exact hall component h
    | _ => rfl
  · rw [if_neg fun h' => hk (eq_of_mem_members h' h)]
    cases k <;> cases k' <;> first | rfl | exact absurd rfl hk

theorem slot_partStep (k : PartKind) (op : ByteOpcode) (component : String) :
    k.slot (partStep op component).1 =
      if component ∈ k.members then k.held component else k.slot op := by
  by_cases h : component ∈ knownParts
  · obtain ⟨k', hk'⟩ := mem_knownParts_iff.mp h
    rw [partStep_of_mem hk', slot_apply hk']
  · rw [partStep_of_not_mem h, if_neg fun hk => h (mem_knownParts_iff.mpr ⟨k, hk⟩)]

theorem held_getD (k : PartKind) (part? : Option String) :
    (part?.map k.held).getD "" = k.held (part?.getD "") := by
  cases part? with
  | some part => rfl
  | none => cases k <;> rfl

/-- The parts of a prefix leave in each slot what is held of the last part of its kind. -/
theorem slot_prefixParts (k : PartKind) (text : String) (parts : List String) :
    k.slot (run partStep { text } parts).1 = k.held (k.last parts) := by
  have hstart : k.slot { text } = "" := by cases k <;> rfl
  have hstep (op : ByteOpcode) (part : String) : k.slot (partStep op part).1 =
      if decide (part ∈ k.members) then k.held part else k.slot op := by
    simpa using slot_partStep k op part
  rw [field_run k.slot (· ∈ k.members) k.held fun op part _ => hstep op part, hstart, held_getD,
    PartKind.last]

theorem text_partStep (op : ByteOpcode) (part : String) : (partStep op part).1.text = op.text :=
  ComponentSet.text_step .vectorPrefix op part

theorem reports_prefixParts (text : String) (parts : List String) :
    (run partStep { text } parts).2 =
      (parts.filter (· ∉ knownParts)).map (.unknownComponent text) := by
  have hstep (op : ByteOpcode) (part : String) : (partStep op part).2 =
      if decide (part ∈ knownParts) then [] else [.unknownComponent op.text part] := by
    by_cases h : part ∈ knownParts
    · obtain ⟨k, hk⟩ := mem_knownParts_iff.mp h
      rw [partStep_of_mem hk, if_pos (decide_eq_true h)]
    · rw [partStep_of_not_mem h, if_neg (by simpa using h)]
  simpa using reports_run text_partStep (fun op part _ => hstep op part) { text }

/-! ### The components behind a prefix -/

/-- Two hexadecimal digits, in upper or lower case. -/
def isHexByte (component : String) : Bool :=
  match component.toList with
  | [c, d] => Token.isHexDigit c && Token.isHexDigit d
  | _ => false

/-- The immediates behind a prefix. -/
def immediates : List String := ["ib", "iw", "id", "iq", "/is4"]

/-- The components that have a meaning behind a prefix. -/
def isKnown (component : String) : Bool :=
  isHexByte component || ComponentClass.isModrm component || component ∈ immediates

def upperCase (component : String) : String :=
  String.ofList (component.toList.map Char.toUpper)

/-- What stands behind the slash of a ModRM component. -/
def fieldOf (component : String) : String := String.ofList (component.toList.drop 1)

theorem isModrm_eq_false {component : String} (h : isHexByte component = true) :
    ComponentClass.isModrm component = false := by
  rw [Bool.eq_false_iff, ne_eq, ComponentClass.isModrm_iff]
  rintro ⟨c, hcs, -⟩
  have hslash : Token.isHexDigit '/' = false := by decide
  simp [isHexByte, hcs, hslash] at h

theorem slot_bodyStep (k : PartKind) (op : ByteOpcode) (component : String) :
    k.slot (bodyStep op component).1 = k.slot op := by
  rcases bodyStep_cases op component with ⟨byte, -, -, h⟩ | ⟨field, -, -, h⟩ | ⟨bits, -, -, h⟩ |
    ⟨-, h⟩ <;> rw [h] <;> cases k <;> rfl

section word

variable {component : String} (hword : Text.isWord component.toList = true)
include hword

theorem byte?_eq : Token.byte? component =
    if isHexByte component then some (upperCase component) else none := by
  unfold Token.byte? isHexByte upperCase
  rw [Text.dropFinalNewline_eq_self (Text.isWord_iff.mp hword).2]
  split
  · next c d hcs => simp [hcs]
  · next hother => simp

theorem toString_of_modrmComponent? {field : Char} (h : modrmComponent? component = some field) :
    field.toString = fieldOf component := by
  unfold modrmComponent? at h
  rw [Text.dropFinalNewline_eq_self (Text.isWord_iff.mp hword).2] at h
  split at h
  · next c hcs =>
    obtain rfl := Option.some.inj (Option.ite_none_right_eq_some.mp h).2
    rw [fieldOf, hcs]
    rfl
  · contradiction

/-- A word is an opcode byte, a ModRM field, an immediate, or has no meaning. -/
theorem bodyStep_eq (op : ByteOpcode) : bodyStep op component =
    if isHexByte component then ({ op with opcode := upperCase component }, [])
    else if ComponentClass.isModrm component then ({ op with modrm := fieldOf component }, [])
    else if component ∈ immediates then
      let bits := bitsOf ComponentSet.vectorBody.markers component
      ({ op with immediateWidth := op.immediateWidth + bits }, [])
    else (op, [.unknownOpcodeComponent op.text component]) := by
  by_cases himmediate : component ∈ immediates
  · -- the classes have nothing in common, which the few immediates show
    have hall : ∀ word ∈ immediates,
        isHexByte word = false ∧ ComponentClass.isModrm word = false := by decide
    obtain ⟨hbyte, hmodrm⟩ := hall component himmediate
    simp only [hbyte, hmodrm, himmediate, if_true, Bool.false_eq_true, if_false]
    exact ComponentSet.vectorBody.step_marker himmediate op
  · have hnone : Token.immediate? component = none := if_neg himmediate
    have hmodrm := Legacy.isSome_modrmComponent? hword
    unfold bodyStep Token.ofComponent?
    rw [byte?_eq hword, hnone, ← hmodrm, if_neg himmediate]
    by_cases hbyte : isHexByte component = true
    · rw [if_pos hbyte, if_pos hbyte]
      rfl
    · rw [if_neg hbyte, if_neg hbyte]
      cases hfield : modrmComponent? component with
      | none => rfl
      | some field =>
          rw [← toString_of_modrmComponent? hword hfield]
          rfl

theorem opcode_bodyStep (op : ByteOpcode) : (bodyStep op component).1.opcode =
    if isHexByte component then upperCase component else op.opcode := by
  rw [bodyStep_eq hword]
  split_ifs <;> rfl

theorem modrm_bodyStep (op : ByteOpcode) : (bodyStep op component).1.modrm =
    if ComponentClass.isModrm component then fieldOf component else op.modrm := by
  rw [bodyStep_eq hword]
  by_cases hbyte : isHexByte component = true
  · rw [if_pos hbyte, isModrm_eq_false hbyte]
    rfl
  · rw [if_neg hbyte]
    split_ifs <;> rfl

theorem reports_bodyStep (op : ByteOpcode) : (bodyStep op component).2 =
    if isKnown component then [] else [.unknownOpcodeComponent op.text component] := by
  rw [bodyStep_eq hword, isKnown]
  split_ifs <;> simp_all

end word

/-! ### All of a text -/

theorem isPrefixed_iff_isPrefix {text : String} :
    isPrefixed text = true ↔ ∃ start ∈ ["VEX.", "XOP.", "EVEX."], start.toList <+: text.toList := by
  rw [isPrefixed, List.any_eq_true]
  refine exists_congr fun start => and_congr_right fun _ => ?_
  rw [Option.isSome_iff_exists]
  exact exists_congr fun rest => Text.after?_eq_some_iff.trans eq_comm

/-- What an opcode says that is read from the parts of a prefix and the components behind it: of
each kind the last one that is written. -/
structure Says (parts body : List String) (op : ByteOpcode) : Prop where
  prefixClass : op.prefixClass.name = PartKind.prefixClass.last parts
  vectorOperand : op.vectorOperand = PartKind.operand.last parts
  vectorLength : op.vectorLength = lengthOf (PartKind.length.last parts)
  mandatory : op.mandatory = PartKind.mandatory.last parts
  escapeMap : op.escapeMap = PartKind.escapeMap.last parts
  width : op.width = PartKind.width.last parts
  opcode : op.opcode = ((lastOf isHexByte body).map upperCase).getD ""
  modrm : op.modrm = ((lastOf ComponentClass.isModrm body).map fieldOf).getD ""

theorem upperCase_ne_empty {component : String} (h : isHexByte component = true) :
    upperCase component ≠ "" := by
  rintro hempty
  have hcs : component.toList = [] := by simpa [upperCase] using hempty
  simp [isHexByte, hcs] at h

/-- An opcode byte is missing if no component is one. -/
theorem Says.opcode_eq_empty_iff {parts body : List String} {op : ByteOpcode}
    (h : Says parts body op) : op.opcode = "" ↔ body.any isHexByte = false := by
  rw [← lastOf_eq_none_iff, h.opcode]
  cases hlast : lastOf isHexByte body with
  | none => simp
  | some component =>
      have hbyte : isHexByte component = true :=
        (List.mem_filter.mp (List.mem_of_getLast? hlast)).2
      simpa using upperCase_ne_empty hbyte

section body

variable {body : List String} (hbody : ∀ component ∈ body, Text.isWord component.toList = true)
include hbody

/-- The body leaves the slots of the prefix alone, and finds its own fields empty. -/
theorem says_run (text first : String) :
    Says (piecesOf '.' first) body
      (run bodyStep (run partStep { text } (piecesOf '.' first)).1 body).1 := by
  have hslot (k : PartKind) :
      k.slot (run bodyStep (run partStep { text } (piecesOf '.' first)).1 body).1 =
        k.held (k.last (piecesOf '.' first)) :=
    run_keeps (P := fun op => k.slot op = k.held (k.last (piecesOf '.' first))) bodyStep
      (fun op component h => (slot_bodyStep k op component).trans h) (slot_prefixParts k text _) body
  have huntouched := untouched_prefix text first
  refine ⟨hslot .prefixClass, hslot .operand, hslot .length, hslot .mandatory, hslot .escapeMap,
    hslot .width, ?_, ?_⟩
  · rw [field_run ByteOpcode.opcode isHexByte upperCase
      fun op component hc => opcode_bodyStep (hbody component hc) op, huntouched.opcode]
  · rw [field_run ByteOpcode.modrm ComponentClass.isModrm fieldOf
      fun op component hc => modrm_bodyStep (hbody component hc) op, huntouched.modrm]

theorem reports_body (op : ByteOpcode) :
    (run bodyStep op body).2 =
      (body.filter (!isKnown ·)).map (.unknownOpcodeComponent op.text) :=
  reports_run (fun op component => ComponentSet.text_step .vectorBody op component)
    (fun op component hc => reports_bodyStep (hbody component hc) op) op

end body

/-- A text with a vector prefix says what the last part or component of each kind says. Each part
of no kind is reported, and each component of none, and after them that there is no opcode byte if
there is none. -/
theorem read_says {text : String}
    (h : ∃ start ∈ ["VEX.", "XOP.", "EVEX."], start.toList <+: text.toList) :
    ∃ first body, wordsOf text = first :: body ∧
      Says (piecesOf '.' first) body (read text).1 ∧
      (read text).2 =
        ((piecesOf '.' first).filter (· ∉ knownParts)).map (.unknownComponent text) ++
          (body.filter (!isKnown ·)).map (.unknownOpcodeComponent text) ++
          if body.any isHexByte then [] else [.noOpcode text] := by
  have hprefixed := isPrefixed_iff_isPrefix.mpr h
  obtain ⟨name, -, rest, body, hwords⟩ := exists_wordsOf_prefixed hprefixed
  generalize String.ofList (name.toList ++ '.' :: rest) = first at hwords
  have hbody : ∀ component ∈ body, Text.isWord component.toList = true := fun component hc =>
    isWord_of_mem_wordsOf (hwords ▸ List.mem_cons_of_mem first hc)
  let op := (run partStep { text } (piecesOf '.' first)).1
  have hcomponents : ByteOpcode.readComponents text =
      ((run bodyStep op body).1,
        (run partStep { text } (piecesOf '.' first)).2 ++ (run bodyStep op body).2) := by
    simp only [ByteOpcode.readComponents, hprefixed, if_true, hwords]
    rfl
  have hsettle := (WellFormed.readComponents hprefixed).settle_eq
  have htext : op.text = text := ByteOpcode.text_run .vectorPrefix { text } (piecesOf '.' first)
  have hsays := says_run hbody text first
  rw [hcomponents] at hsettle
  refine ⟨first, body, hwords, ?_, ?_⟩
  · simpa only [ByteOpcode.read, hcomponents, hsettle] using hsays
  · simp only [ByteOpcode.read, hcomponents, hsettle]
    have hopcode : (run bodyStep op body).1.opcode = "" ↔ body.any isHexByte = false :=
      hsays.opcode_eq_empty_iff
    rw [reports_prefixParts, reports_body hbody, htext]
    cases hbyte : body.any isHexByte with
    | true => simp [hopcode, hbyte]
    | false => simp [hopcode, hbyte]

/-- Of a prefix class, an opcode byte and a ModRM field that are written twice, what is written
last counts. An empty part is of no kind. -/
theorem read_says_twice :
    let text := "EVEX.VEX..L1.66.P0 58 0a zz /r /7"
    (∃ start ∈ ["VEX.", "XOP.", "EVEX."], start.toList <+: text.toList) ∧
      Says ["EVEX", "VEX", "", "L1", "66", "P0"] ["58", "0a", "zz", "/r", "/7"] (read text).1 ∧
      ((read text).1.prefixClass, (read text).1.vectorLength, (read text).1.mandatory,
        (read text).1.opcode, (read text).1.modrm) = (.vex, "256", "66", "0A", "7") ∧
      (read text).2 = [.unknownComponent text "", .unknownOpcodeComponent text "zz"] := by
  intro text
  have hstart : ∃ start ∈ ["VEX.", "XOP.", "EVEX."], start.toList <+: text.toList :=
    ⟨"EVEX.", by decide, by decide⟩
  have hwords : wordsOf text = ["EVEX.VEX..L1.66.P0", "58", "0a", "zz", "/r", "/7"] := by
    decide +kernel
  obtain ⟨first, body, hcut, hsays, hreports⟩ := read_says hstart
  rw [hwords] at hcut
  obtain ⟨rfl, rfl⟩ := List.cons.inj hcut
  have hpieces : piecesOf '.' "EVEX.VEX..L1.66.P0" = ["EVEX", "VEX", "", "L1", "66", "P0"] := by
    decide +kernel
  rw [hpieces] at hsays hreports
  refine ⟨hstart, hsays, by decide +kernel, hreports.trans ?_⟩
  decide +kernel

end Vector

end InstrTable
