import InstrTable.Proofs.ByteOpcode.Share
import InstrTable.Proofs.ByteOpcode.Vector

/-!
Legacy components in another order. A text may be rearranged as long as the components of
each class keep their order, and for three of the classes even that does not matter.
-/

namespace InstrTable

/-- Whether components of a class may also change places with each other. -/
def ComponentClass.IsFree (k : ComponentClass) : Prop := k = .rexW ∨ k = .immediate ∨ k = .other

/-- The components of a class, in their order. -/
def ofClass (k : ComponentClass) (components : List String) : List String :=
  components.filter fun component => ComponentClass.of component = k

/-- Whether components are the same up to their order, and in the same order where bytes,
ModRM fields or displacements are compared with their own kind. -/
structure Rearranged (components others : List String) : Prop where
  bytes : ofClass .byte components = ofClass .byte others
  modrm : ofClass .modrm components = ofClass .modrm others
  displacements : ofClass .displacement components = ofClass .displacement others
  rexW : (ofClass .rexW components).Perm (ofClass .rexW others)
  immediates : (ofClass .immediate components).Perm (ofClass .immediate others)
  rest : (ofClass .other components).Perm (ofClass .other others)

theorem Rearranged.ofClass_eq_or_perm {components others : List String}
    (h : Rearranged components others) (k : ComponentClass) :
    ofClass k components = ofClass k others ∨
      k.IsFree ∧ (ofClass k components).Perm (ofClass k others) := by
  cases k with
  | byte => exact .inl h.bytes
  | modrm => exact .inl h.modrm
  | displacement => exact .inl h.displacements
  | rexW => exact .inr ⟨.inl rfl, h.rexW⟩
  | immediate => exact .inr ⟨.inr (.inl rfl), h.immediates⟩
  | other => exact .inr ⟨.inr (.inr rfl), h.rest⟩

namespace Legacy

/-! ### Runs over one class -/

open ByteOpcode (run run_cons)

variable {k : ComponentClass} {components others : List String} {op op' : ByteOpcode}

/-- Over components of one class, runs from opcodes with the same share differ in nothing
that the class has to do with. -/
theorem run_congr (hclass : ∀ c ∈ components, (Token.ofComponent c).componentClass = k)
    (h : op.share k = op'.share k) :
    (run step op components).1.share k = (run step op' components).1.share k ∧
      (run step op components).2.length = (run step op' components).2.length := by
  induction components generalizing op op' with
  | nil => exact ⟨h, rfl⟩
  | cons c components ih =>
      obtain ⟨hc, hothers⟩ := List.forall_mem_cons.mp hclass
      obtain ⟨hshare, hreports⟩ := share_step hc op
      obtain ⟨hshare', hreports'⟩ := share_step hc op'
      rw [h] at hshare hreports
      obtain ⟨hrest, hlength⟩ := ih hothers (hshare.trans hshare'.symm)
      rw [run_cons, run_cons]
      refine ⟨hrest, ?_⟩
      rw [List.length_append, List.length_append, hreports, hreports', hlength]

/-- Each of two such components does the same before and after the other. -/
theorem step_comm (hk : k.IsFree) {a b : String} (ha : (Token.ofComponent a).componentClass = k)
    (hb : (Token.ofComponent b).componentClass = k) (op : ByteOpcode) :
    (step (step op a).1 b).1 = (step (step op b).1 a).1 ∧
      (step (step op b).1 a).2.length = (step op a).2.length := by
  unfold step
  generalize Token.ofComponent a = s at ha ⊢
  generalize Token.ofComponent b = t at hb ⊢
  subst ha
  cases s with
  | byte | modrm | displacement => simp [ComponentClass.IsFree, Token.componentClass] at hk
  | rexW =>
      cases t with
      | rexW => exact ⟨rfl, rfl⟩
      | _ => simp [Token.componentClass] at hb
  | immediate bits =>
      cases t with
      | immediate bits' => simp [action?, Action.apply, Nat.add_right_comm]
      | _ => simp [Token.componentClass] at hb
  | other text =>
      cases t with
      | other text' => exact ⟨rfl, rfl⟩
      | _ => simp [Token.componentClass] at hb

/-- Components that may change places with each other may be read in any order. -/
theorem run_perm (hk : k.IsFree) (h : components.Perm others)
    (hclass : ∀ c ∈ components, (Token.ofComponent c).componentClass = k) (op : ByteOpcode) :
    (run step op components).1 = (run step op others).1 ∧
      (run step op components).2.length = (run step op others).2.length := by
  induction h generalizing op with
  | nil => exact ⟨rfl, rfl⟩
  | cons c _ ih =>
      obtain ⟨hop, hlength⟩ := ih (List.forall_mem_cons.mp hclass).2 (step op c).1
      rw [run_cons, run_cons]
      exact ⟨hop, by rw [List.length_append, List.length_append, hlength]⟩
  | swap a b components =>
      have ha := hclass a (by simp)
      have hb := hclass b (by simp)
      obtain ⟨hop, hlength⟩ := step_comm hk ha hb op
      obtain ⟨-, hlength'⟩ := step_comm hk hb ha op
      simp only [run_cons, hop, List.length_append, hlength, hlength', true_and]
      omega
  | trans hperm _ ih ih' =>
      obtain ⟨hop, hlength⟩ := ih hclass op
      obtain ⟨hop', hlength'⟩ := ih' (fun c hc => hclass c (hperm.mem_iff.mpr hc)) op
      exact ⟨hop.trans hop', hlength.trans hlength'⟩

/-! ### Runs over all classes -/

theorem componentClass_of_mem_ofClass
    (hwords : ∀ c ∈ components, Text.isWord c.toList = true) :
    ∀ c ∈ ofClass k components, (Token.ofComponent c).componentClass = k := by
  intro c hc
  obtain ⟨hmem, hof⟩ := List.mem_filter.mp hc
  rw [componentClass_ofComponent (hwords c hmem)]
  exact of_decide_eq_true hof

theorem ofClass_cons (k : ComponentClass) (component : String) (components : List String) :
    ofClass k (component :: components) =
      if ComponentClass.of component = k then component :: ofClass k components
      else ofClass k components := by
  simp [ofClass, List.filter_cons]

/-- The share of a class comes from its components alone. -/
theorem share_run (k : ComponentClass) (hwords : ∀ c ∈ components, Text.isWord c.toList = true)
    (op : ByteOpcode) :
    (run step op components).1.share k = (run step op (ofClass k components)).1.share k := by
  induction components generalizing op with
  | nil => rfl
  | cons c components ih =>
      obtain ⟨hc, hothers⟩ := List.forall_mem_cons.mp hwords
      rw [run_cons, ih hothers (step op c).1, ofClass_cons]
      split
      · rw [run_cons]
      · next hne =>
        -- a component of another class was read first, and the others do not see it
        rw [← componentClass_ofComponent hc] at hne
        exact (run_congr (componentClass_of_mem_ofClass hothers) (share_step_of_ne hne op)).1

/-- The sum over all classes. -/
def total (f : ComponentClass → Nat) : Nat :=
  f .byte + f .rexW + f .modrm + f .immediate + f .displacement + f .other

theorem total_add (k : ComponentClass) (n : Nat) (f : ComponentClass → Nat) :
    total (fun j => (if k = j then n else 0) + f j) = n + total f := by
  cases k <;> simp [total] <;> omega

/-- Each report is made for a component of some class, and comes from the components of
that class alone. -/
theorem length_reports_run (hwords : ∀ c ∈ components, Text.isWord c.toList = true)
    (op : ByteOpcode) :
    (run step op components).2.length =
      total fun k => (run step op (ofClass k components)).2.length := by
  induction components generalizing op with
  | nil => rfl
  | cons c components ih =>
      obtain ⟨hc, hothers⟩ := List.forall_mem_cons.mp hwords
      -- the reports for the first component are made in the run of its class alone
      have hclass : ∀ k, (run step op (ofClass k (c :: components))).2.length =
          (if ComponentClass.of c = k then (step op c).2.length else 0) +
            (run step (step op c).1 (ofClass k components)).2.length := by
        intro k
        rw [ofClass_cons]
        split
        · rw [run_cons, List.length_append]
        · next hne =>
          rw [← componentClass_ofComponent hc] at hne
          rw [Nat.zero_add]
          exact (run_congr (componentClass_of_mem_ofClass hothers)
            (share_step_of_ne hne op).symm).2
      simp only [hclass, total_add]
      rw [run_cons, List.length_append, ih hothers]

/-- Rearranged components do the same to the share of each class. -/
theorem run_ofClass (h : Rearranged components others)
    (hwords : ∀ c ∈ components ++ others, Text.isWord c.toList = true) (k : ComponentClass)
    (hop : op.share k = op'.share k) :
    (run step op (ofClass k components)).1.share k =
        (run step op' (ofClass k others)).1.share k ∧
      (run step op (ofClass k components)).2.length =
        (run step op' (ofClass k others)).2.length := by
  obtain ⟨hcomponents, hothers⟩ := List.forall_mem_append.mp hwords
  obtain ⟨hshare, hreports⟩ := run_congr (componentClass_of_mem_ofClass hothers) hop
  rcases h.ofClass_eq_or_perm k with heq | ⟨hfree, hperm⟩
  · rw [heq]
    exact ⟨hshare, hreports⟩
  · obtain ⟨hsame, hlength⟩ :=
      run_perm hfree hperm (componentClass_of_mem_ofClass hcomponents) op
    rw [hsame, hlength]
    exact ⟨hshare, hreports⟩

/-- Runs over rearranged components end in the same opcode but for the text, and report
equally often. -/
theorem run_rearranged (h : Rearranged components others)
    (hwords : ∀ c ∈ components ++ others, Text.isWord c.toList = true)
    (hop : ∀ k, op.share k = op'.share k) :
    (∀ k, (run step op components).1.share k = (run step op' others).1.share k) ∧
      (run step op components).2.length = (run step op' others).2.length := by
  obtain ⟨hcomponents, hothers⟩ := List.forall_mem_append.mp hwords
  have hclass k := run_ofClass h hwords k (hop k)
  constructor
  · intro k
    rw [share_run k hcomponents, share_run k hothers]
    exact (hclass k).1
  · rw [length_reports_run hcomponents, length_reports_run hothers]
    simp only [fun k => (hclass k).2]

end Legacy

namespace ByteOpcode

theorem settle_text (op : ByteOpcode) :
    { op.settle with text := "" } = settle { op with text := "" } := by
  unfold settle
  split
  · rfl
  · rfl

theorem readComponents_legacy {components : List String}
    (hwords : ∀ c ∈ components, Text.isWord c.toList = true ∧ Vector.isPrefixed c = false) :
    readComponents (" ".intercalate components) =
      run Legacy.step { text := " ".intercalate components } components := by
  unfold readComponents
  rw [Vector.isPrefixed_eq_false fun c hc => (hwords c hc).2,
    wordsOf_intercalate fun c hc => (hwords c hc).1]
  rfl

/-- Components of different classes may change places. The opcode that is read from a legacy
text depends on the order of its bytes, that of its ModRM fields and that of its
displacements, and so does how often something is reported. -/
theorem read_rearranged {components others : List String}
    (hwords : ∀ c ∈ components ++ others,
      Text.isWord c.toList = true ∧ Vector.isPrefixed c = false)
    (h : Rearranged components others) :
    { (read (" ".intercalate components)).1 with text := "" } =
        { (read (" ".intercalate others)).1 with text := "" } ∧
      (read (" ".intercalate components)).2.length =
        (read (" ".intercalate others)).2.length := by
  obtain ⟨hcomponents, hothers⟩ := List.forall_mem_append.mp hwords
  have hstart k : share { text := " ".intercalate components } k =
      share { text := " ".intercalate others } k := by
    cases k <;> rfl
  obtain ⟨hshare, hreports⟩ := Legacy.run_rearranged h (fun c hc => (hwords c hc).1) hstart
  rw [← readComponents_legacy hcomponents, ← readComponents_legacy hothers] at hshare hreports
  have hsettled : { (readComponents (" ".intercalate components)).1.settle with text := "" } =
      { (readComponents (" ".intercalate others)).1.settle with text := "" } := by
    rw [settle_text, settle_text, eq_of_share_eq hshare]
  have hopcode : (readComponents (" ".intercalate components)).1.settle.opcode =
      (readComponents (" ".intercalate others)).1.settle.opcode := by
    simpa using congrArg ByteOpcode.opcode hsettled
  refine ⟨hsettled, ?_⟩
  -- whether a missing opcode is reported can be told from what was settled
  simp only [read, List.length_append, hreports, hopcode]
  split
  · rfl
  · rfl

/-- The escape `0F 38` and its opcode byte, with a digit, an immediate, a REX prefix and what is
not known strewn between them. -/
theorem read_rearranged_crc32 :
    { (read (" ".intercalate ["F2", "REX.W", "0F", "38", "F1", "/r", "ib", "+"])).1 with
        text := "" } =
      { (read (" ".intercalate ["+", "/r", "F2", "ib", "0F", "38", "REX.W", "F1"])).1 with
        text := "" } ∧
      (read (" ".intercalate ["F2", "REX.W", "0F", "38", "F1", "/r", "ib", "+"])).2.length =
        (read (" ".intercalate ["+", "/r", "F2", "ib", "0F", "38", "REX.W", "F1"])).2.length :=
  read_rearranged (by decide) ⟨by decide, by decide, by decide, by decide, by decide, by decide⟩

end ByteOpcode

end InstrTable
