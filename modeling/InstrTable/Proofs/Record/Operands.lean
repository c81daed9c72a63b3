import InstrTable.Builtin.X86
import InstrTable.Proofs.TopLevel.Reading
import InstrTable.Record.Reader
import Mathlib.Data.List.Forall2

/-!
What becomes of the tokens of an operand list. Each of them is read in its place, and what
is read of the list are the operands and the reports of its tokens, in their order. A token
of which there is nothing but decorations has no alternatives in x86, and leaves neither.
-/

namespace InstrTable

theorem splitTopLevel_eq_nil_iff {sep : Char} {s : String} :
    splitTopLevel (some sep) s = .ok [] ↔ trimmed s = "" := by
  refine ⟨fun h => ?_, splitTopLevel_of_empty⟩
  by_contra hne
  obtain ⟨as, -, hlength⟩ := length_of_splitTopLevel hne h
  simp at hlength

/-- What is read of one operand token. -/
structure TokenReading where
  operand? : Option Operand
  reports : List Diagnostic

/-- A token that leaves no operand, and no report of this. -/
def TokenReading.IsLost (r : TokenReading) : Prop := r.operand? = none ∧ r.reports = []

namespace Grammar

variable {g : Grammar} {token : String} {fallback : Option Access}

/-- The core of a token behind its shift operator. -/
def coreOf (g : Grammar) (token : String) : String :=
  String.ofList (g.takeShift (Operand.peel token).core).2

/-- Every alternative without a form is reported. -/
theorem eq_nil_of_forms {alts : List String} (h : g.forms token alts = (.ok [], [])) :
    alts = [] := by
  cases alts with
  | nil => rfl
  | cons alt alts =>
      rw [forms] at h
      split at h
      · simp at h
      · simp at h
      · cases hrest : (g.forms token alts).1 <;> simp [hrest, Except.map] at h

/-- A token is lost where its core has no alternatives. -/
theorem read_lost_iff :
    g.read token fallback = (.ok none, []) ↔ g.alternatives (g.coreOf token) = .ok [] := by
  unfold read coreOf
  constructor
  · intro h
    cases halts : g.alternatives (String.ofList (g.takeShift (Operand.peel token).core).2) with
    | error e => simp [halts] at h
    | ok alts =>
        simp only [halts] at h
        split at h
        · simp at h
        · next forms ds hforms =>
          split at h
          · next hnil =>
            obtain ⟨-, rfl⟩ := Prod.mk.inj h
            rw [hnil] at hforms
            rw [eq_nil_of_forms hforms]
          · simp at h
  · intro halts
    simp [halts, forms]

end Grammar

/-- A token of x86 that holds nothing but decorations. -/
def Dictionaries.IsBare (d : Dictionaries) (token : String) : Prop :=
  d.dialect = .x86 ∧ trimmed (String.ofList (Operand.peel token).core) = ""

namespace Record

variable {d : Dictionaries}

/-- What a token is read as in its place. -/
def Reads (d : Dictionaries) (place : String × Nat) (r : TokenReading) : Prop :=
  (Grammar.ofDialect d).read place.1 (d.dialect.fallbackAccess place.2) =
    (.ok r.operand?, r.reports)

theorem Reads.isLost_iff {place : String × Nat} {r : TokenReading} (h : Reads d place r) :
    r.IsLost ↔ d.IsBare place.1 := by
  have hread : r.IsLost ↔ (Grammar.ofDialect d).read place.1
      (d.dialect.fallbackAccess place.2) = (.ok none, []) := by
    rw [h, TokenReading.IsLost, Prod.mk.injEq, Except.ok.injEq]
  rw [hread, Grammar.read_lost_iff, Dictionaries.IsBare]
  unfold Grammar.ofDialect Grammar.coreOf
  cases d.dialect with
  | x86 => simpa [Grammar.x86] using splitTopLevel_eq_nil_iff
  -- the core is the one alternative, even when it is empty
  | arm => simp [Grammar.arm]

/-- The tokens of an operand list: in x86, of what is left of it without its decorations. -/
def operandTokens (d : Dictionaries) (s : String) : Except SplitError (List String) :=
  splitTopLevel (some ',') (match d.dialect with
    | .x86 => String.ofList (takeDecorations s.toList).1
    | .arm => s)

variable {operands : List Operand} {ds : List Diagnostic} {tokens : List String}

/-- The tokens are read one by one, each in its place. -/
theorem exists_readings {i : Nat} (h : readTokens d i tokens = (.ok operands, ds)) :
    ∃ readings, List.Forall₂ (Reads d) (tokens.zipIdx i) readings ∧
      operands = readings.filterMap (·.operand?) ∧ ds = readings.flatMap (·.reports) := by
  induction tokens generalizing i operands ds with
  | nil =>
      obtain ⟨rfl, rfl⟩ : [] = operands ∧ [] = ds := by simpa [readTokens] using h
      exact ⟨[], .nil, rfl, rfl⟩
  | cons token tokens ih =>
      rw [readTokens] at h
      split at h
      · simp at h
      · next operand ds₁ hread =>
        obtain ⟨rest, ds₂, hrest⟩ : ∃ rest ds₂, readTokens d (i + 1) tokens = (rest, ds₂) :=
          ⟨_, _, rfl⟩
        simp only [hrest] at h
        cases rest with
        | error e => simp [Except.map] at h
        | ok others =>
            obtain ⟨rfl, rfl⟩ : operand.toList ++ others = operands ∧ ds₁ ++ ds₂ = ds := by
              simpa [Except.map] using h
            obtain ⟨readings, hreadings, rfl, rfl⟩ := ih hrest
            refine ⟨⟨operand, ds₁⟩ :: readings, .cons hread hreadings, ?_, rfl⟩
            cases operand <;> rfl

/-- What is read of an operand list is what is read of its tokens. -/
theorem exists_reads {places : List (String × Nat)} {readings : List TokenReading}
    (h : List.Forall₂ (Reads d) places readings) {r : TokenReading} (hr : r ∈ readings) :
    ∃ place, Reads d place r := by
  induction h with
  | nil => contradiction
  | cons hreads _ ih =>
      rcases List.mem_cons.mp hr with rfl | hr
      · exact ⟨_, hreads⟩
      · exact ih hr

theorem readTokens_of_readOperands {s : String} {decorations : List (String × Setting)}
    (h : readOperands d s = (.ok (operands, decorations), ds)) :
    ∃ tokens, operandTokens d s = .ok tokens ∧ readTokens d 0 tokens = (.ok operands, ds) := by
  unfold readOperands at h
  unfold operandTokens
  cases hdialect : d.dialect <;> simp only [hdialect] at h ⊢
  all_goals
    unfold readList at h
    split at h
    · simp [Except.map] at h
    · next tokens htokens =>
      refine ⟨tokens, htokens, ?_⟩
      cases hread : readTokens d 0 tokens with
      | mk result reports =>
          cases result <;> simp_all [Except.map]

theorem exists_isLost_iff {i : Nat} {readings : List TokenReading}
    (h : List.Forall₂ (Reads d) (tokens.zipIdx i) readings) :
    (∃ r ∈ readings, r.IsLost) ↔ ∃ token ∈ tokens, d.IsBare token := by
  induction tokens generalizing i readings with
  | nil =>
      obtain rfl : readings = [] := by simpa using h
      simp
  | cons token tokens ih =>
      obtain ⟨r, rest, hr, hrest, rfl⟩ := List.forall₂_cons_left_iff.mp h
      rw [List.exists_mem_cons_iff, List.exists_mem_cons_iff, hr.isLost_iff, ih hrest]

/-- Without reports, there are as many operands as tokens that are not lost. -/
theorem length_filterMap_iff {readings : List TokenReading}
    (h : readings.flatMap (·.reports) = []) :
    (readings.filterMap (·.operand?)).length = readings.length ↔ ¬∃ r ∈ readings, r.IsLost := by
  have hreports : ∀ r ∈ readings, r.reports = [] := by simpa using h
  rw [List.filterMap_length_eq_length]
  push Not
  refine forall₂_congr fun r hr => ?_
  simp [TokenReading.IsLost, hreports r hr, Option.ne_none_iff_isSome]

/-- Every token of an operand list is read in its place, and gives one operand or is reported,
unless its core is blank: such a token of x86 is lost. So where nothing is reported, there are
as many operands as tokens just if none of them is bare. -/
theorem token_lost_iff {s : String} {decorations : List (String × Setting)}
    (h : readOperands d s = (.ok (operands, decorations), ds)) :
    ∃ tokens readings, operandTokens d s = .ok tokens ∧
      List.Forall₂ (Reads d) tokens.zipIdx readings ∧
      operands = readings.filterMap (·.operand?) ∧ ds = readings.flatMap (·.reports) ∧
      ((∀ r ∈ readings, r.operand? ≠ none ∨ r.reports ≠ []) ↔ ∀ token ∈ tokens, ¬d.IsBare token) ∧
      (ds = [] → (operands.length = tokens.length ↔ ∀ token ∈ tokens, ¬d.IsBare token)) := by
  obtain ⟨tokens, htokens, hread⟩ := readTokens_of_readOperands h
  obtain ⟨readings, hreadings, hoperands, hreports⟩ := exists_readings hread
  have hlost : (¬∃ r ∈ readings, r.IsLost) ↔ ∀ token ∈ tokens, ¬d.IsBare token := by
    rw [exists_isLost_iff hreadings]
    push Not
    rfl
  refine ⟨tokens, readings, htokens, hreadings, hoperands, hreports, ?_, fun hds => ?_⟩
  · rw [← hlost]
    push Not
    exact forall₂_congr fun r _ => not_and_or.symm
  · have hlength : readings.length = tokens.length := by simpa using hreadings.length_eq.symm
    rw [← hlost, ← hlength, hoperands]
    exact length_filterMap_iff (hreports ▸ hds)

theorem token_lost_iff_shift :
    let d : Dictionaries := { dialect := .x86 }
    ∃ operands tokens, readOperands d "X:m32, 1" = (.ok (operands, []), []) ∧
      operandTokens d "X:m32, 1" = .ok tokens ∧ operands.length = 2 ∧
      (operands.length = tokens.length ↔ ∀ token ∈ tokens, ¬d.IsBare token) := by
  intro d
  have hread : readOperands d "X:m32, 1" =
      (.ok ([
        { text := "m32", access := some .readWrite, forms_ne_nil := List.cons_ne_nil _ _
          forms := [.memory { name := "m32", size := 32 }] },
        { text := "1", implicit := true, forms_ne_nil := List.cons_ne_nil _ _
          forms := [.immediate { name := "1", width := 8, literal := some 1 }] }], []), []) := by
    decide +kernel
  obtain ⟨tokens, -, htokens, -, -, -, -, hlength⟩ := token_lost_iff hread
  exact ⟨_, tokens, hread, htokens, rfl, hlength rfl⟩

/-- An access without an operand is lost: of two tokens there is one operand, and nothing is
reported. -/
theorem bare_access_lost :
    operandTokens Builtin.X86.dictionaries "W:, r32" = .ok ["W:", "r32"] ∧
      readOperands Builtin.X86.dictionaries "W:, r32" =
        (.ok ([{ text := "r32", access := some .read, forms_ne_nil := List.cons_ne_nil _ _
                 forms := [.register { name := "r32", kind := "r32" }] }], []), []) := by
  constructor
  · decide +kernel
  · decide +kernel

end Record

end InstrTable
