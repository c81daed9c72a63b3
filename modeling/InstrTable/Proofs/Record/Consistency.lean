import InstrTable.Proofs.ByteOpcode.Clean
import InstrTable.Proofs.Metadata.LastWriter
import InstrTable.Proofs.Record.Assembly
import InstrTable.Proofs.Record.Operands

/-!
Records of x86 without problems. Operands, opcode, metadata and the checks of one against
the other report on their own; where none of them does, the record agrees with itself.
-/

namespace InstrTable

theorem Text.occursIn_iff {part cs : List Char} : occursIn part cs = true ↔ part <:+: cs := by
  induction cs with
  | nil => simp [occursIn]
  | cons c cs ih =>
      rw [occursIn, Bool.or_eq_true, ih, List.infix_cons_iff, List.isPrefixOf_iff_prefix]

/-- A record of x86 that agrees with itself. -/
structure Record.Consistent (r : Record) : Prop where
  /-- The opcode is one byte, and has the bits of the immediates that are written in it. -/
  opcode : ∃ op, r.opcode = .bytes op ∧ ByteOpcode.IsByte op.opcode ∧
    op.immediateWidth =
      8 * (wordsOf r.opcodeText).count "ib" + 16 * (wordsOf r.opcodeText).count "iw" +
        32 * (wordsOf r.opcodeText).count "id" + 64 * (wordsOf r.opcodeText).count "iq" +
          4 * (wordsOf r.opcodeText).count "/is4"
  /-- Every encoded immediate has its letter in the encoding. -/
  encoding : List.replicate (encodedImmediates r.operands) 'I' <:+: r.encoding.toList
  /-- Every encoded immediate has its word in the opcode, and the other way round. -/
  immediates : (wordsOf r.opcodeText).countP (· ∈ ["ib", "iw", "id", "iq"]) =
    encodedImmediates r.operands
  vectorMemory : r.operands.countP (·.isVectorMemory) ≤ 1
  implicit : ∀ op ∈ r.operands, op.implicit = true →
    ∀ form ∈ op.forms, form.isMemoryOrEncoded = false
  assignments : ∀ a ∈ r.metadata.assignments, a.kind ≠ .unknown
  specialRegisters : ∀ name value, r.metadata.specialRegisters.get? name = some value →
    value ∈ [.text "R", .text "W", .text "X", .text "U", .text "0", .text "1"]

/-! ### The operands -/

/-- An operand is about the bits of its token, as they are written there. The last that may be
reported of it is that it is implicit and has bits of its own. -/
theorem Grammar.operand_of_read {g : Grammar} {token : String} {fallback : Option Access}
    {op : Operand} {ds : List Diagnostic} (h : g.read token fallback = (.ok (some op), ds)) :
    op.bitRange = (Operand.peel token).bitRange ∧ ∃ ds₀, ds = ds₀ ++
      if op.implicit && op.forms.any Form.isMemoryOrEncoded then [.implicitEncoded token]
      else [] := by
  unfold read at h
  dsimp only at h
  split at h
  · simp at h
  · split at h
    · simp at h
    · next forms ds₀ _ =>
      split at h
      · simp at h
      · obtain ⟨hop, rfl⟩ := Prod.mk.inj h
        obtain rfl := Option.some.inj (Except.ok.inj hop)
        exact ⟨rfl, ds₀, rfl⟩

namespace Record

variable {d : Dictionaries}

/-- An operand that is read without a report is not implicit where it has bits of its own. -/
theorem not_isMemoryOrEncoded_of_readOperands {s : String} {operands : List Operand}
    {decorations : List (String × Setting)}
    (h : readOperands d s = (.ok (operands, decorations), [])) :
    ∀ op ∈ operands, op.implicit = true → ∀ form ∈ op.forms, form.isMemoryOrEncoded = false := by
  intro op hop himplicit form hform
  obtain ⟨tokens, -, hread⟩ := readTokens_of_readOperands h
  obtain ⟨readings, hreadings, rfl, hreports⟩ := exists_readings hread
  obtain ⟨r, hr, hfound⟩ := List.mem_filterMap.mp hop
  have hclean : r.reports = [] := List.flatMap_eq_nil_iff.mp hreports.symm r hr
  obtain ⟨place, hplace⟩ := exists_reads hreadings hr
  rw [Reads, hfound, hclean] at hplace
  obtain ⟨-, ds₀, hds⟩ := Grammar.operand_of_read hplace
  obtain ⟨-, hclash⟩ : ds₀ = [] ∧
      (op.implicit = true → ∀ form ∈ op.forms, form.isMemoryOrEncoded = false) := by
    simpa using hds
  exact hclash himplicit form hform

/-! ### The metadata -/

/-- The assignments that the decorations of an operand list make. -/
def decorationLog (v : Vocabulary) (decorations : List (String × Setting)) : List Assignment :=
  decorations.map fun x => ⟨x.1, x.2, .explicit, v.kindOf x.1 x.2⟩

theorem decorate_eq (v : Vocabulary) (m : Metadata) (decorations : List (String × Setting)) :
    decorate v m decorations =
      ((decorationLog v decorations).foldl v.enter m,
        (decorationLog v decorations).filterMap Assignment.problem?) :=
  v.foldl_assign m Prod.fst Prod.snd .explicit decorations

theorem makes_of_mem_decorationLog {v : Vocabulary} {decorations : List (String × Setting)}
    {a : Assignment} (h : a ∈ decorationLog v decorations) : v.Makes a := by
  obtain ⟨x, -, rfl⟩ := List.mem_map.mp h
  exact .inr rfl

/-- Decorations are entered after the privilege level is settled, which makes no assignment, so
that the record has one list of assignments. -/
theorem assignments_decorate (v : Vocabulary) (s : String)
    (decorations : List (String × Setting)) :
    (decorate v (v.read s).1 decorations).1.assignments =
      v.log s ++ decorationLog v decorations := by
  have hmade : ∀ a ∈ decorationLog v decorations, v.Makes a := fun _ => makes_of_mem_decorationLog
  rw [decorate_eq, Vocabulary.assignments_foldl_enter hmade, Vocabulary.assignments_read]

theorem tells_decorate (v : Vocabulary) (s : String) (decorations : List (String × Setting)) :
    v.Tells (v.log s ++ decorationLog v decorations) (decorate v (v.read s).1 decorations).1 := by
  have hmade : ∀ a ∈ decorationLog v decorations, v.Makes a := fun _ => makes_of_mem_decorationLog
  rw [decorate_eq]
  exact (Vocabulary.tells_read v s).foldl_enter hmade

/-- All assignments of a record that is read without a report are known, and use special
registers as registers can be used. -/
theorem metadata_clean {v : Vocabulary} {s : String} {decorations : List (String × Setting)}
    (hread : (v.read s).2 = []) (hdecorate : (decorate v (v.read s).1 decorations).2 = []) :
    let m := (decorate v (v.read s).1 decorations).1
    (∀ a ∈ m.assignments, a.kind ≠ .unknown) ∧
      ∀ name value, m.specialRegisters.get? name = some value →
        Meaning.isRegisterUse value = true := by
  intro m
  let log := v.log s ++ decorationLog v decorations
  have hassignments : m.assignments = log := assignments_decorate v s decorations
  have htells : v.Tells log m := tells_decorate v s decorations
  have hproblem : ∀ a ∈ log, a.problem? = none := by
    rw [Vocabulary.read_eq, List.filterMap_eq_nil_iff] at hread
    rw [decorate_eq, List.filterMap_eq_nil_iff] at hdecorate
    exact List.forall_mem_append.mpr ⟨hread, hdecorate⟩
  refine ⟨fun a ha hunknown => ?_, fun name value hvalue => ?_⟩
  · have hnone := hproblem a (hassignments ▸ ha)
    simp [Assignment.problem?, hunknown] at hnone
  · rw [htells.specialRegisters_eq, Option.map_eq_some_iff] at hvalue
    obtain ⟨a, hlast, rfl⟩ := hvalue
    obtain ⟨hmem, hkind⟩ := List.mem_filter.mp (List.mem_of_getLast? hlast)
    have hnone := hproblem a hmem
    simp_all [Assignment.problem?]

/-! ### The record -/

/-- What a record of x86 is put together from. -/
theorem exists_of_read [Capacity] {entry : Entry} {aliasOf : String} {r : Record} {ds : Diagnostics}
    (hx86 : d.dialect = .x86) (h : read d entry aliasOf = (.ok r, ds)) :
    let v := Vocabulary.ofDialect d
    ∃ decorations ds₀, readOperands d entry.operands = (.ok (r.operands, decorations), ds₀) ∧
      r.opcode = .bytes (ByteOpcode.read entry.opcode).1 ∧ r.opcodeText = entry.opcode ∧
      r.metadata = (decorate v (v.read entry.metadata).1 decorations).1 ∧
      r.diagnostics.entries = ds₀ ++ (ByteOpcode.read entry.opcode).2 ++
        (v.read entry.metadata).2 ++ (decorate v (v.read entry.metadata).1 decorations).2 ++
          x86Problems r.operands r.encoding r.opcodeText := by
  intro v
  obtain ⟨operands, decorations, opcode, ds₀, ds₁, hoperands, hopcode, rfl, -⟩ :=
    read_eq_ok_iff.mp h
  obtain ⟨rfl, rfl⟩ : .bytes (ByteOpcode.read entry.opcode).1 = opcode ∧
      (ByteOpcode.read entry.opcode).2 = ds₁ := by
    simpa [hx86] using hopcode
  have hsame : (assemble d entry aliasOf operands decorations
      (.bytes (ByteOpcode.read entry.opcode).1)
      (ds₀ ++ (ByteOpcode.read entry.opcode).2)).operands = operands := List.map_id _
  exact ⟨decorations, ds₀, hsame.symm ▸ hoperands, rfl, rfl, rfl, rfl⟩

/-- The bits of all immediates are those of each word, as often as it is written. -/
theorem sum_immediateBits (words : List String) :
    (words.map ByteOpcode.immediateBits).sum =
      8 * words.count "ib" + 16 * words.count "iw" + 32 * words.count "id" +
        64 * words.count "iq" + 4 * words.count "/is4" := by
  induction words with
  | nil => rfl
  | cons word words ih =>
      rw [List.map_cons, List.sum_cons, ih]
      by_cases h : word ∈ ByteOpcode.immediateWords ∨ word = "/is4"
      · simp only [ByteOpcode.immediateWords, List.mem_cons, List.not_mem_nil, or_false] at h
        rcases h with (rfl | rfl | rfl | rfl) | rfl
        all_goals
          simp [ByteOpcode.immediateBits, ByteOpcode.immediateWords, immediateSize?]
          omega
      · rw [ByteOpcode.immediateBits, if_neg h]
        simp only [ByteOpcode.immediateWords, List.mem_cons, List.not_mem_nil, or_false,
          not_or] at h
        simp [h]

/-- A record of x86 without problems agrees with itself. -/
theorem consistent_of_valid [Capacity] {entry : Entry} {aliasOf : String} {r : Record}
    {ds : Diagnostics}
    (hx86 : d.dialect = .x86) (h : read d entry aliasOf = (.ok r, ds)) (hvalid : r.invalid = 0) :
    r.Consistent := by
  obtain ⟨decorations, ds₀, hoperands, hopcode, htext, hmetadata, hentries⟩ := exists_of_read hx86 h
  -- no part has reported anything
  rw [List.length_eq_zero_iff.mp hvalid, eq_comm] at hentries
  simp only [List.append_eq_nil_iff, and_assoc] at hentries
  obtain ⟨rfl, hbytes, hread, hdecorate, hproblems⟩ := hentries
  obtain ⟨hbyte, hwidth, hwords⟩ := ByteOpcode.read_clean hbytes
  obtain ⟨hassignments, hregisters⟩ := metadata_clean hread hdecorate
  simp only [x86Problems, List.append_eq_nil_iff, ite_eq_left_iff, reduceCtorEq, imp_false,
    not_not] at hproblems
  obtain ⟨⟨hletters, hcount⟩, hvectors⟩ := hproblems
  constructor
  case opcode =>
    refine ⟨_, hopcode, hbyte, ?_⟩
    rw [hwidth, sum_immediateBits, htext]
  case encoding => exact Text.occursIn_iff.mp hletters
  case immediates =>
    rw [← hcount, htext]
    refine List.countP_congr fun word hword => ?_
    have hbegins : ∀ word ∈ ByteOpcode.immediateWords, beginsImmediate word = true := by decide
    rw [decide_eq_true_iff]
    exact ⟨hbegins word, hwords word hword⟩
  case vectorMemory => rwa [List.countP_eq_length_filter]
  case implicit => exact not_isMemoryOrEncoded_of_readOperands hoperands
  case assignments => exact hmetadata ▸ hassignments
  case specialRegisters =>
    intro name value hvalue
    rw [hmetadata] at hvalue
    have huse := hregisters name value hvalue
    simpa [Meaning.isRegisterUse] using huse

theorem consistent_of_valid_compare :
    let d : Dictionaries := {
      dialect := .x86
      extensions := .ofList [("AVX512F", { name := "AVX512F" })]
      registers := .ofList [("k", ⟨.text "k", .text "mask", none⟩),
        ("xmm", ⟨.text "xmm", .text "vec", none⟩)] }
    let entry : Entry := ⟨"vcmppd", "W:k {k}, xmm, xmm/m128/b64, ib", "RVMI-FV",
      "EVEX.NDS.128.66.0F.W1 C2 /r ib", "AVX512F-VL"⟩
    ∃ r ds, read d entry "" = (.ok r, ds) ∧ r.invalid = 0 ∧ r.Consistent := by
  intro d entry
  obtain ⟨r, ds, hread, hvalid⟩ : ∃ r ds, read d entry "" = (.ok r, ds) ∧ r.invalid = 0 :=
    exists_of_map_toOption (by decide +kernel)
  exact ⟨r, ds, hread, hvalid, consistent_of_valid rfl hread hvalid⟩

end Record

end InstrTable
