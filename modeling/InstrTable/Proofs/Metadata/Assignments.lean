import InstrTable.Metadata.Vocabulary

/-!
The assignments that metadata is read as. A word asks for some assignments, whatever was
read before it. They are entered one by one, and of each it can be told from the assignment
alone whether something is wrong with it. So metadata is the entry of a list of
assignments, and what is reported are the problems of that list, in its order.
-/

namespace InstrTable

/-- What is wrong with an assignment, if anything is. -/
def Assignment.problem? (a : Assignment) : Option Diagnostic :=
  match a.kind with
  | .unknown => some (.unknownFlag a.key a.value.shown)
  | .operation => if a.value = .set then some (.operationWithoutName a.key a.value.shown) else none
  | .specialRegister =>
    if Meaning.isRegisterUse a.value then none else some (.specialRegisterUse a.value.shown)
  | .specific =>
    if a.key = "PRIVILEGE" ∧ X86Key.isPrivilege a.value = false then
      some (.privilegeLevel a.value.shown)
    else if a.key = "FPU_POP" ∧ X86Key.popCount? a.value = none then
      some (.popCount a.value.shown)
    else none
  | .extension | .attribute | .architecture | .unspecified => none

/-- The name under which a key of x86 is found, if it has one that does not vary. -/
def X86Key.name? : X86Key → Option String
  | .vectorLengths _ => none
  | .fpu => some "FPU"
  | .masking => some "k"
  | .zeroMasking => some "kz"
  | .exceptions => some "sae"
  | .rounding => some "er"
  | .privilege => some "PRIVILEGE"
  | .broadcast => some "broadcast"
  | .push => some "FPU_PUSH"
  | .pop => some "FPU_POP"
  | .top _ => some "FPU_TOP"

theorem X86Key.name?_of_ofName? {key : String} {value : Setting} {k : X86Key}
    (h : ofName? key value = some k) : k.name? = some key := by
  unfold ofName? at h
  split at h
  case h_10 =>
    split at h
    case h_3 => contradiction
    all_goals
      obtain rfl := Option.some.inj h
      rfl
  case h_11 => contradiction
  all_goals
    obtain rfl := Option.some.inj h
    rfl

theorem Metadata.addExtension_eq (m : Metadata) (name : String) :
    m.addExtension name =
      { m with
        extensions := if name ∈ m.extensions then m.extensions else m.extensions ++ [name] } := by
  unfold addExtension
  split
  · rfl
  · rfl

/-- A key of x86 changes extensions and attributes, and nothing else. -/
theorem X86Key.apply_eq (m : Metadata) (value : Setting) (k : X86Key) :
    k.apply m value =
      { m with
        extensions := (k.apply m value).extensions
        attributes := (k.apply m value).attributes } := by
  cases k with
  | vectorLengths extension => simp only [apply, Metadata.addExtension_eq]
  | pop =>
      simp only [apply]
      split
      · rfl
      · rfl
  | _ => rfl

namespace Vocabulary

variable {v : Vocabulary} {key : String} {value : Setting}

/-- What kind of thing a key names, given its value. -/
def kindOf (v : Vocabulary) (key : String) (value : Setting) : AssignmentKind :=
  (v.meaning key value).kind

/-- Enters an assignment. -/
def enter (v : Vocabulary) (m : Metadata) (a : Assignment) : Metadata :=
  let m := if a.kind = .unspecified then { m with unspecified := true }
    else (v.meaning a.key a.value).apply m a.key a.value
  { m with assignments := m.assignments ++ [a] }

/-- The metadata that a list of assignments says. -/
def replay (v : Vocabulary) (log : List Assignment) : Metadata := log.foldl v.enter {}

/-- The assignments that a word asks for. -/
def assignmentsOf (v : Vocabulary) (word : String) : List Assignment :=
  if word = "?" then [⟨"?", .set, .explicit, .unspecified⟩]
  else
    let (key, value) := splitWord word
    let (key, source) := v.expand key
    (alternatives key).map fun key => ⟨key, value, source, v.kindOf key value⟩

/-- All assignments that a text asks for, in order. -/
def log (v : Vocabulary) (s : String) : List Assignment := (wordsOf s).flatMap v.assignmentsOf

/-! ### One assignment -/

/-- A key that only x86 has is spelled in its own way, or is that of an extension with
short vectors. -/
theorem x86Key?_cases {k : X86Key} (h : v.x86Key? key value = some k) :
    (∃ extension, k = .vectorLengths extension ∧ X86Key.shortVectors? key = some extension ∧
      v.dictionaries.isExtension extension = true) ∨
    k.name? = some key := by
  unfold x86Key? at h
  split at h
  · split at h
    · next extension hfilter =>
      obtain ⟨hfound, hextension⟩ := Option.filter_eq_some_iff.mp hfilter
      exact .inl ⟨extension, (Option.some.inj h).symm, hfound, hextension⟩
    · exact .inr (X86Key.name?_of_ofName? h)
  · contradiction

theorem knowsX86_of_x86Key? {k : X86Key} (h : v.x86Key? key value = some k) :
    v.knowsX86 = true := by
  unfold x86Key? at h
  split at h
  · assumption
  · contradiction

theorem meaning_eq_specific {k : X86Key} (h : v.meaning key value = .specific k) :
    v.x86Key? key value = some k := by
  unfold meaning at h
  grind

theorem kindOf_ne_unspecified (v : Vocabulary) (key : String) (value : Setting) :
    v.kindOf key value ≠ .unspecified := by
  unfold kindOf
  cases v.meaning key value with
  | dictionary isExtension isRegister => cases isRegister <;> simp [Meaning.kind]
  | _ => simp [Meaning.kind]

theorem problems_specific {k : X86Key} (h : v.x86Key? key value = some k) (source : Source) :
    k.problems value = (Assignment.problem? ⟨key, value, source, .specific⟩).toList := by
  rcases x86Key?_cases h with ⟨extension, rfl, hvectors, -⟩ | hname
  · -- only these two keys are ever found wrong, and they ask for no short vectors
    have hother : ∀ name ∈ ["PRIVILEGE", "FPU_POP"], X86Key.shortVectors? name = none := by decide
    have hprivilege : key ≠ "PRIVILEGE" := by
      rintro rfl
      simp [hother] at hvectors
    have hpop : key ≠ "FPU_POP" := by
      rintro rfl
      simp [hother] at hvectors
    simp [X86Key.problems, Assignment.problem?, hprivilege, hpop]
  · cases k <;> simp only [X86Key.name?, Option.some.injEq, reduceCtorEq] at hname <;> subst hname
    all_goals simp [X86Key.problems, Assignment.problem?]
    · cases X86Key.isPrivilege value <;> rfl
    · cases X86Key.popCount? value <;> rfl

/-- What a meaning finds wrong can be told from the assignment that is made of it. -/
theorem problems_meaning (v : Vocabulary) (key : String) (value : Setting) (source : Source) :
    (v.meaning key value).problems key value =
      (Assignment.problem? ⟨key, value, source, v.kindOf key value⟩).toList := by
  unfold kindOf
  cases hmeaning : v.meaning key value with
  | operation =>
      by_cases hset : value = .set <;>
        simp [Meaning.problems, Meaning.kind, Assignment.problem?, hset]
  | dictionary isExtension isRegister =>
      cases isRegister with
      | false => rfl
      | true =>
          cases huse : Meaning.isRegisterUse value <;>
            simp [Meaning.problems, Meaning.kind, Assignment.problem?, huse]
  | specific k => exact problems_specific (meaning_eq_specific hmeaning) source
  | _ => rfl

/-- To give a key a value is to enter an assignment of it. -/
theorem assign_eq (v : Vocabulary) (m : Metadata) (key : String) (value : Setting)
    (source : Source) :
    let a : Assignment := ⟨key, value, source, v.kindOf key value⟩
    v.assign m key value source = (v.enter m a, a.problem?.toList) := by
  intro a
  have hkind : a.kind ≠ .unspecified := kindOf_ne_unspecified v key value
  rw [← problems_meaning, assign, enter, if_neg hkind]
  rfl

/-- Whether an assignment is one that reading makes: that of a lone question mark, or one
whose kind is that of its key. -/
def Makes (v : Vocabulary) (a : Assignment) : Prop :=
  a = ⟨"?", .set, .explicit, .unspecified⟩ ∨ a.kind = v.kindOf a.key a.value

/-- What the entry of an assignment changes, apart from the list of them. The cases exclude
one another: what a dictionary declares is not looked for in the next. -/
inductive Entered (v : Vocabulary) (m : Metadata) : Assignment → Metadata → Prop where
  | unspecified : Entered v m ⟨"?", .set, .explicit, .unspecified⟩ { m with unspecified := true }
  | operation {value : Setting} {source : Source} :
      Entered v m ⟨"Op", value, source, .operation⟩
        { m with operations := m.operations ++ Meaning.operations value }
  | architecture {key : String} {value : Setting} {source : Source} (hop : key ≠ "Op")
      (declared : v.dictionaries.isArchitecture key = true) :
      Entered v m ⟨key, value, source, .architecture⟩ { m with arch := key }
  | typed {key : String} {value : Setting} {source : Source} {a : Attribute} (hop : key ≠ "Op")
      (harch : v.dictionaries.isArchitecture key = false)
      (declared : v.dictionaries.attributes.get? key = some a) :
      Entered v m ⟨key, value, source, .attribute⟩
        { m with attributes := m.attributes.insert key (.ofKind a.kind value) }
  | extension {key : String} {value : Setting} {source : Source} (hop : key ≠ "Op")
      (hattribute : v.dictionaries.attributes.get? key = none)
      (declared : v.dictionaries.isExtension key = true) :
      Entered v m ⟨key, value, source, .extension⟩
        { m with extensions := (m.addExtension key).extensions }
  | register {key : String} {value : Setting} {source : Source} (hop : key ≠ "Op")
      (hattribute : v.dictionaries.attributes.get? key = none)
      (declared : v.dictionaries.specialRegisters.contains key = true) :
      Entered v m ⟨key, value, source, .specialRegister⟩
        { m with
          extensions := if v.dictionaries.isExtension key then (m.addExtension key).extensions
            else m.extensions
          specialRegisters := m.specialRegisters.insert key value }
  | specific {key : String} {value : Setting} {source : Source} {k : X86Key} (hop : key ≠ "Op")
      (hattribute : v.dictionaries.attributes.get? key = none)
      (known : v.x86Key? key value = some k) :
      Entered v m ⟨key, value, source, .specific⟩
        { m with
          extensions := (k.apply m value).extensions
          attributes := (k.apply m value).attributes }
  | unknown {key : String} {value : Setting} {source : Source} (hop : key ≠ "Op")
      (hattribute : v.dictionaries.attributes.get? key = none) :
      Entered v m ⟨key, value, source, .unknown⟩ m

/-- What a key means is entered. The cases follow the order in which the dictionaries are
asked. -/
theorem entered_meaning (v : Vocabulary) (m : Metadata) (key : String) (value : Setting)
    (source : Source) :
    v.Entered m ⟨key, value, source, v.kindOf key value⟩
      ((v.meaning key value).apply m key value) := by
  unfold kindOf meaning
  by_cases hop : key = "Op"
  · subst hop
    rw [if_pos rfl]
    exact .operation
  rw [if_neg hop]
  cases harch : v.dictionaries.isArchitecture key with
  | true => exact .architecture hop harch
  | false =>
    cases hattribute : v.dictionaries.attributes.get? key with
    | some a => exact .typed hop harch hattribute
    | none =>
      cases hregister : v.dictionaries.specialRegisters.contains key with
      | true =>
        have hentered : v.Entered m ⟨key, value, source, .specialRegister⟩ _ :=
          .register hop hattribute hregister
        cases hextension : v.dictionaries.isExtension key with
        | true => simpa [Meaning.apply, Meaning.kind, hextension, m.addExtension_eq] using hentered
        | false => simpa [Meaning.apply, Meaning.kind, hextension] using hentered
      | false =>
        cases hextension : v.dictionaries.isExtension key with
        | true =>
          have hentered : v.Entered m ⟨key, value, source, .extension⟩ _ :=
            .extension hop hattribute hextension
          simpa [Meaning.apply, Meaning.kind, m.addExtension_eq] using hentered
        | false =>
          cases hspecific : v.x86Key? key value with
          | some k =>
            have hentered : v.Entered m ⟨key, value, source, .specific⟩ _ :=
              .specific hop hattribute hspecific
            rw [← k.apply_eq m value] at hentered
            exact hentered
          | none => exact .unknown hop hattribute

theorem entered_enter {a : Assignment} (h : v.Makes a) (m : Metadata) :
    ∃ m', v.Entered m a m' ∧ v.enter m a = { m' with assignments := m'.assignments ++ [a] } := by
  obtain rfl | hkind := h
  · exact ⟨_, .unspecified, rfl⟩
  · obtain ⟨key, value, source, kind⟩ := a
    obtain rfl : kind = v.kindOf key value := hkind
    refine ⟨_, entered_meaning v m key value source, ?_⟩
    rw [enter, if_neg (kindOf_ne_unspecified v key value)]

/-! ### Lists of assignments -/

theorem Entered.assignments_eq {m m' : Metadata} {a : Assignment} (h : v.Entered m a m') :
    m'.assignments = m.assignments := by
  cases h <;> rfl

theorem assignments_foldl_enter {log : List Assignment} (h : ∀ a ∈ log, v.Makes a)
    (m : Metadata) : (log.foldl v.enter m).assignments = m.assignments ++ log := by
  induction log generalizing m with
  | nil => simp
  | cons a log ih =>
      obtain ⟨ha, hlog⟩ := List.forall_mem_cons.mp h
      obtain ⟨m', hentered, henter⟩ := entered_enter ha m
      rw [List.foldl_cons, ih hlog, henter, hentered.assignments_eq, List.append_assoc,
        List.singleton_append]

/-- Where each item of a list is read as assignments, the list is read as all of them. -/
theorem foldl_enter {α : Type} (step : Metadata → α → Metadata × List Diagnostic)
    (assignments : α → List Assignment)
    (hstep : ∀ m x, step m x =
      ((assignments x).foldl v.enter m, (assignments x).filterMap Assignment.problem?))
    (m : Metadata) (ds : List Diagnostic) (xs : List α) :
    xs.foldl (fun (m, ds) x =>
        let (m, ds') := step m x
        (m, ds ++ ds')) (m, ds) =
      ((xs.flatMap assignments).foldl v.enter m,
        ds ++ (xs.flatMap assignments).filterMap Assignment.problem?) := by
  induction xs generalizing m ds with
  | nil => simp
  | cons x xs ih =>
      have hfirst := ih (step m x).1 (ds ++ (step m x).2)
      rw [hstep] at hfirst
      rw [List.flatMap_cons, List.foldl_append, List.filterMap_append, ← List.append_assoc,
        ← hfirst, List.foldl_cons]
      simp only [hstep]

/-- To give some keys their values is to enter an assignment for each of them. -/
theorem foldl_assign {α : Type} (v : Vocabulary) (m : Metadata) (key : α → String)
    (value : α → Setting) (source : Source) (xs : List α) :
    let log := xs.map fun x => ⟨key x, value x, source, v.kindOf (key x) (value x)⟩
    xs.foldl (fun (m, ds) x =>
        let (m, ds') := v.assign m (key x) (value x) source
        (m, ds ++ ds')) (m, []) = (log.foldl v.enter m, log.filterMap Assignment.problem?) := by
  intro log
  have hfold := foldl_enter (v := v) (fun m x => v.assign m (key x) (value x) source)
    (fun x => [⟨key x, value x, source, v.kindOf (key x) (value x)⟩])
    (fun m x => by rw [assign_eq, List.filterMap_cons]; cases Assignment.problem? _ <;> rfl)
    m [] xs
  rw [List.nil_append, ← List.map_eq_flatMap] at hfold
  exact hfold

/-- A word is read as the assignments that it asks for. -/
theorem readWord_eq (v : Vocabulary) (m : Metadata) (word : String) :
    v.readWord m word =
      ((v.assignmentsOf word).foldl v.enter m,
        (v.assignmentsOf word).filterMap Assignment.problem?) := by
  unfold readWord assignmentsOf
  split
  · rfl
  · exact foldl_assign ..

/-- Metadata is read as the assignments that its words ask for. -/
theorem read_eq (v : Vocabulary) (s : String) :
    v.read s = (v.settle (v.replay (v.log s)), (v.log s).filterMap Assignment.problem?) := by
  have hfold := foldl_enter v.readWord v.assignmentsOf v.readWord_eq {} [] (wordsOf s)
  rw [List.nil_append] at hfold
  rw [read, hfold]
  rfl

theorem makes_of_mem_log {s : String} {a : Assignment} (h : a ∈ v.log s) : v.Makes a := by
  obtain ⟨word, -, ha⟩ := List.mem_flatMap.mp h
  unfold assignmentsOf at ha
  split at ha
  · exact .inl (List.mem_singleton.mp ha)
  · obtain ⟨key, -, rfl⟩ := List.mem_map.mp ha
    exact .inr rfl

/-- The assignments are kept as they were made. -/
theorem assignments_read (v : Vocabulary) (s : String) : (v.read s).1.assignments = v.log s := by
  have hreplay : (v.replay (v.log s)).assignments = v.log s :=
    assignments_foldl_enter (fun _ => makes_of_mem_log) {}
  rw [read_eq, settle]
  split
  · exact hreplay
  · exact hreplay

end Vocabulary

end InstrTable
