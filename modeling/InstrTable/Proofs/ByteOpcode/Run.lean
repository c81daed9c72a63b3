import InstrTable.ByteOpcode.Vector

/-!
Runs over the components of an opcode. A run is its first step and then the run of
what is left, and the reports of a reading are those of its steps.
-/

namespace InstrTable

namespace ByteOpcode

section Run

variable {α : Type} (step : ByteOpcode → α → ByteOpcode × List Diagnostic)

theorem foldl_step (op : ByteOpcode) (ds : List Diagnostic) (components : List α) :
    components.foldl (fun (op, ds) component =>
        let (op, ds') := step op component
        (op, ds ++ ds')) (op, ds) =
      ((run step op components).1, ds ++ (run step op components).2) := by
  induction components generalizing op ds with
  | nil => simp [run]
  | cons component components ih =>
      have hrun : run step op (component :: components) =
          ((run step (step op component).1 components).1,
            (step op component).2 ++ (run step (step op component).1 components).2) := by
        simpa [run] using ih (step op component).1 (step op component).2
      rw [List.foldl_cons, hrun, ih]
      simp

@[simp] theorem run_nil (op : ByteOpcode) : run step op [] = (op, []) := rfl

@[simp] theorem run_cons (op : ByteOpcode) (component : α) (components : List α) :
    run step op (component :: components) =
      ((run step (step op component).1 components).1,
        (step op component).2 ++ (run step (step op component).1 components).2) := by
  simpa [run] using foldl_step step (step op component).1 (step op component).2 components

/-- Components that are read without a report need not be looked at again. -/
theorem run_append {op op' : ByteOpcode} {components : List α}
    (h : run step op components = (op', [])) (others : List α) :
    run step op (components ++ others) = run step op' others := by
  induction components generalizing op with
  | nil =>
      obtain rfl : op = op' := congrArg Prod.fst h
      rfl
  | cons component components ih =>
      rw [run_cons, Prod.mk.injEq, List.append_eq_nil_iff] at h
      have hrest := ih (Prod.ext h.1 h.2.2)
      rw [List.cons_append, run_cons, hrest, h.2.1, List.nil_append]

/-- What every step keeps, a run keeps. -/
theorem run_keeps {P : ByteOpcode → Prop}
    (hstep : ∀ op component, P op → P (step op component).1) {op : ByteOpcode} (hop : P op)
    (components : List α) : P (run step op components).1 := by
  induction components generalizing op with
  | nil => exact hop
  | cons component components ih =>
      rw [run_cons]
      exact ih (hstep op component hop)

end Run

end ByteOpcode

/-- How a component of each set is read. -/
def ComponentSet.step : ComponentSet → ByteOpcode → String → ByteOpcode × List Diagnostic
  | .legacy => Legacy.step
  | .vectorPrefix => Vector.partStep
  | .vectorBody => Vector.bodyStep

/-- One step of a reading: a component, the set by which it is classified, and the
opcode before it. -/
structure ReadingStep where
  set : ComponentSet
  before : ByteOpcode
  component : String

namespace ReadingStep

/-- The name of what the component does. -/
def rule? (s : ReadingStep) : Option String := s.set.classify s.before s.component

/-- The opcode after the step. -/
def after (s : ReadingStep) : ByteOpcode := (s.set.step s.before s.component).1

def reports (s : ReadingStep) : List Diagnostic := (s.set.step s.before s.component).2

end ReadingStep

namespace ByteOpcode

/-- The steps that read components from `op` on. -/
def stepsFrom (set : ComponentSet) (op : ByteOpcode) : List String → List ReadingStep
  | [] => []
  | component :: components =>
    ⟨set, op, component⟩ :: stepsFrom set (set.step op component).1 components

/-- The steps that read a text. -/
def steps (text : String) : List ReadingStep :=
  if Vector.isPrefixed text then
    match wordsOf text with
    | [] => []
    | first :: body =>
      let parts := piecesOf '.' first
      stepsFrom .vectorPrefix { text } parts ++
        stepsFrom .vectorBody (run Vector.partStep { text } parts).1 body
  else stepsFrom .legacy { text } (wordsOf text)

/-- What every step keeps holds before each of them. -/
theorem before_of_mem_stepsFrom {set : ComponentSet} {P : ByteOpcode → Prop}
    (hstep : ∀ op component, P op → P (set.step op component).1) {op : ByteOpcode} (hop : P op)
    {components : List String} {s : ReadingStep} (hs : s ∈ stepsFrom set op components) :
    P s.before := by
  induction components generalizing op with
  | nil => simp [stepsFrom] at hs
  | cons component components ih =>
      rcases List.mem_cons.mp hs with rfl | hs
      · exact hop
      · exact ih (hstep op component hop) hs

theorem set_of_mem_stepsFrom {set : ComponentSet} {op : ByteOpcode} {components : List String}
    {s : ReadingStep} (hs : s ∈ stepsFrom set op components) : s.set = set := by
  induction components generalizing op with
  | nil => simp [stepsFrom] at hs
  | cons component components ih =>
      rcases List.mem_cons.mp hs with rfl | hs
      · rfl
      · exact ih hs

theorem reports_stepsFrom (set : ComponentSet) (op : ByteOpcode) (components : List String) :
    (run set.step op components).2 = (stepsFrom set op components).flatMap (·.reports) := by
  induction components generalizing op with
  | nil => rfl
  | cons component components ih =>
      rw [run_cons, ih]
      rfl

theorem reports_steps (text : String) :
    (readComponents text).2 = (steps text).flatMap (·.reports) := by
  unfold readComponents steps
  split
  · cases wordsOf text with
    | nil => rfl
    | cons first body =>
        simp only [List.flatMap_append]
        rw [← reports_stepsFrom .vectorPrefix, ← reports_stepsFrom .vectorBody]
        rfl
  · exact reports_stepsFrom .legacy _ _

/-- A text is read without a report only if each of its steps is. -/
theorem reports_eq_nil {text : String} (h : (read text).2 = []) {s : ReadingStep}
    (hs : s ∈ steps text) : s.reports = [] := by
  have hcomponents : (readComponents text).2 = [] := by
    simp only [read, List.append_eq_nil_iff] at h
    exact h.1
  rw [reports_steps, List.flatMap_eq_nil_iff] at hcomponents
  exact hcomponents s hs

end ByteOpcode

end InstrTable
