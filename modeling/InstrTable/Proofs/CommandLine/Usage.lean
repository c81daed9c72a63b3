import InstrTable.CommandLine.Arguments
import InstrTable.Proofs.Text.Pieces
import InstrTable.Proofs.Text.Words
import Mathlib.Data.List.TakeWhile

/-!
Arguments one by one: which of them are operands, and what one more option does to the others.
-/

namespace InstrTable.CommandLine

variable {α : Type}

/-- A text, which begins with a hyphen, may stand for an option by a name: it begins with the
name, or if it begins with two hyphens, what is in front of its equals sign begins the name. -/
def StandsFor (text name : String) : Prop :=
  if ['-', '-'] <+: text.toList then text.toList.takeWhile (· ≠ '=') <+: name.toList
  else name.toList <+: text.toList

instance (text name : String) : Decidable (StandsFor text name) :=
  inferInstanceAs (Decidable (if ['-', '-'] <+: text.toList then _ <+: _ else _ <+: _))

/-- A name of an option is a hyphen and another character, or it begins with two hyphens. -/
def Flag.WellNamed (flag : Flag α) : Prop :=
  ∀ name ∈ flag.names, ['-', '-'] <+: name.toList ∨ ∃ c, c ≠ '-' ∧ name.toList = ['-', c]

/-- An option that takes no value, with long names in which there is no blank. -/
structure Flag.IsSwitch (flag : Flag α) : Prop where
  takesValue_eq : flag.takesValue = false
  long : ∀ name ∈ flag.names, ∃ c rest, name.toList = '-' :: '-' :: c :: rest
  blankless : ∀ name ∈ flag.names, ' ' ∉ name.toList

/-- An argument that no usage accepts in front of the double hyphen: one that is not known, or a
value for an option that takes none. -/
inductive Argument.IsRefused : Argument α → Prop where
  | unknown : IsRefused .unknown
  | value {flag : Flag α} {name value : String} : flag.IsSwitch → name ∈ flag.names →
    IsRefused (.option flag name (some value))

namespace Usage

variable {u : Usage α} {text : String}

/-- A usage with one more option. -/
def adding (u : Usage α) (flag : Flag α) : Usage α := { u with flags := u.flags ++ [flag] }

/-- An argument that is an operand wherever it stands: it does not begin with a hyphen, or is
nothing else, or it is a negative number or contains a blank and may stand for no option. -/
def IsOperand (u : Usage α) (text : String) : Prop :=
  text.toList.head? ≠ some '-' ∨ text = "-" ∨
    (isNegativeNumber text = true ∨ ' ' ∈ text.toList) ∧
      ∀ flag ∈ u.flags, ∀ name ∈ flag.names, ¬StandsFor text name

instance (u : Usage α) (text : String) : Decidable (u.IsOperand text) :=
  inferInstanceAs (Decidable (_ ∨ _ ∨ (_ ∨ _) ∧ ∀ flag ∈ u.flags, ∀ name ∈ flag.names,
    ¬StandsFor text name))

/-! ### Names -/

theorem named_eq_none_iff {name : String} :
    u.named name = none ↔ ∀ flag ∈ u.flags, name ∉ flag.names := by
  simp [named, List.find?_eq_none]

theorem mem_of_named {name : String} {flag : Flag α} (h : u.named name = some flag) :
    flag ∈ u.flags ∧ name ∈ flag.names :=
  ⟨List.mem_of_find?_eq_some h, by simpa using List.find?_some h⟩

theorem splitValue_fst (text : String) :
    (splitValue text).1.toList = text.toList.takeWhile (· ≠ '=') := by
  unfold splitValue
  split
  · next name value hcut =>
    obtain ⟨htext, hname⟩ := Text.cutFirst?_eq_some_iff.mp hcut
    have hall : ∀ c ∈ name, decide (c ≠ '=') = true := by
      rintro c hc
      exact decide_eq_true fun h => hname (h ▸ hc)
    rw [htext, List.takeWhile_append_of_pos hall]
    simp
  · next hcut =>
    have hnone := Text.cutFirst?_eq_none_iff.mp hcut
    refine (List.takeWhile_eq_self_iff.mpr fun c hc => ?_).symm
    exact decide_eq_true fun h => hnone (h ▸ hc)

theorem splitValue_of_snd_eq_none (h : (splitValue text).2 = none) :
    (splitValue text).1 = text := by
  unfold splitValue at h ⊢
  split at h
  · contradiction
  · rfl

theorem completions_eq_nil_iff {front : String} {value : Option String} :
    u.completions front value = [] ↔
      ∀ flag ∈ u.flags, ∀ name ∈ flag.names, ¬front.toList <+: name.toList := by
  simp [completions, List.flatMap_eq_nil_iff, List.filter_eq_nil_iff, ← Text.isSome_after?_iff]

/-! ### Operands -/

variable {c : Char} {rest : List Char}

theorem candidates_long (h : text.toList = '-' :: '-' :: rest) :
    u.candidates text = u.completions (splitValue text).1 (splitValue text).2 := by
  simp [candidates, h]

theorem candidates_short (h : text.toList = '-' :: c :: rest) (hc : c ≠ '-') :
    u.candidates text =
      match u.named (String.ofList ['-', c]) with
      | some flag => [.option flag (String.ofList ['-', c]) (some (String.ofList rest))]
      | none => [] := by
  unfold candidates
  rw [h]
  split
  · next heq => exact absurd (List.cons.inj (List.cons.inj heq).2).1 hc
  · next heq =>
    obtain ⟨rfl, rfl⟩ := List.cons.inj (List.cons.inj heq).2
    rfl
  · next hne => exact absurd rfl (hne c rest)

theorem candidates_of_head?_ne (h : ∀ c rest, text.toList ≠ '-' :: c :: rest) :
    u.candidates text = [] := by
  unfold candidates
  split
  · next heq => exact absurd heq (h _ _)
  · next heq => exact absurd heq (h _ _)
  · rfl

theorem standsFor_long_iff {name : String} (h : text.toList = '-' :: '-' :: rest) :
    StandsFor text name ↔ (splitValue text).1.toList <+: name.toList := by
  rw [StandsFor, if_pos (by simp [h]), splitValue_fst]

theorem standsFor_short_iff {name : String} (h : text.toList = '-' :: c :: rest) (hc : c ≠ '-') :
    StandsFor text name ↔ name.toList <+: text.toList := by
  rw [StandsFor, if_neg (by simp [h, Ne.symm hc])]

/-- The options that an argument may stand for are found if and only if there are any. -/
theorem candidates_eq_nil_iff (hu : ∀ flag ∈ u.flags, flag.WellNamed)
    (h : text.toList = '-' :: c :: rest) :
    u.candidates text = [] ↔ ∀ flag ∈ u.flags, ∀ name ∈ flag.names, ¬StandsFor text name := by
  by_cases hc : c = '-'
  · subst hc
    simp only [candidates_long h, completions_eq_nil_iff, standsFor_long_iff h]
  · have hnames (flag : Flag α) (hflag : flag ∈ u.flags) (name : String)
        (hname : name ∈ flag.names) : StandsFor text name ↔ name = String.ofList ['-', c] := by
      rw [standsFor_short_iff h hc, h, ← String.toList_inj, String.toList_ofList]
      obtain hlong | ⟨c', -, hname⟩ := hu flag hflag name hname
      · obtain ⟨back, hback⟩ := hlong
        simp [← hback, Ne.symm hc]
      · simp [hname]
    have hnil : u.candidates text = [] ↔ u.named (String.ofList ['-', c]) = none := by
      rw [candidates_short h hc]
      cases u.named (String.ofList ['-', c]) <;> simp
    rw [hnil, named_eq_none_iff]
    refine forall₂_congr fun flag hflag => ?_
    constructor
    · intro hnot name hname hstands
      exact hnot ((hnames flag hflag name hname).mp hstands ▸ hname)
    · intro hnot hname
      exact hnot _ hname ((hnames flag hflag _ hname).mpr rfl)

/-- An argument stands for an option without a value only if it begins its name. -/
theorem mem_candidates {a : Argument α} (h : a ∈ u.candidates text) :
    ∃ flag ∈ u.flags, ∃ name ∈ flag.names, ∃ value,
      a = .option flag name value ∧ (value = none → text.toList <+: name.toList) := by
  by_cases hdash : ∃ c rest, text.toList = '-' :: c :: rest
  · obtain ⟨c, rest, htext⟩ := hdash
    by_cases hc : c = '-'
    · subst hc
      rw [candidates_long htext] at h
      obtain ⟨flag, hflag, hmem⟩ := List.mem_flatMap.mp h
      obtain ⟨name, hname, rfl⟩ := List.mem_map.mp hmem
      obtain ⟨hname, hfront⟩ := List.mem_filter.mp hname
      refine ⟨flag, hflag, name, hname, _, rfl, fun hvalue => ?_⟩
      rwa [splitValue_of_snd_eq_none hvalue, Text.isSome_after?_iff] at hfront
    · rw [candidates_short htext hc] at h
      split at h
      · next flag hflag =>
        obtain ⟨hflag, hname⟩ := mem_of_named hflag
        exact ⟨flag, hflag, _, hname, _, List.mem_singleton.mp h, by simp⟩
      · contradiction
  · simp only [not_exists] at hdash
    rw [candidates_of_head?_ne hdash] at h
    contradiction

theorem standsFor_self (text : String) : StandsFor text text := by
  unfold StandsFor
  split
  · exact List.takeWhile_prefix _
  · exact List.prefix_rfl

theorem standsFor_splitValue (text : String) : StandsFor text (splitValue text).1 := by
  unfold StandsFor
  rw [splitValue_fst]
  split
  · exact List.prefix_rfl
  · exact List.takeWhile_prefix _

theorem argument_of_named {flag : Flag α} (h : text.toList = '-' :: c :: rest) (hne : text ≠ "--")
    (hnamed : u.named text = some flag) : u.argument text = .ok (.option flag text none) := by
  have hhyphen : text ≠ "-" := by
    rintro rfl
    simp at h
  simp [argument, h, hne, hhyphen, hnamed]

theorem argument_of_splitValue {flag : Flag α} {value : String}
    (h : text.toList = '-' :: c :: rest) (hne : text ≠ "--") (hself : u.named text = none)
    (hnamed : u.named (splitValue text).1 = some flag) (hvalue : (splitValue text).2 = some value) :
    u.argument text =
      .ok (.option flag (splitValue text).1 (some (u.textBehind flag value))) := by
  have hhyphen : text ≠ "-" := by
    rintro rfl
    simp at h
  simp [argument, h, hne, hhyphen, hself, hnamed, hvalue]

/-- What an argument is that holds no name of an option. -/
theorem argument_of_candidates (h : text.toList = '-' :: c :: rest) (hne : text ≠ "--")
    (hself : u.named text = none)
    (hsplit : u.named (splitValue text).1 = none ∨ (splitValue text).2 = none) :
    u.argument text =
      match u.candidates text with
      | [a] => .ok a
      | _ :: _ :: _ => .error .misuse
      | [] =>
        if isNegativeNumber text = true ∨ ' ' ∈ text.toList then .ok (.operand text)
        else .ok .unknown := by
  have hhyphen : text ≠ "-" := by
    rintro rfl
    simp at h
  have hhead : ¬(text.toList.head? ≠ some '-' ∨ text = "-") := by simp [h, hhyphen]
  rw [argument, if_neg hne, if_neg hhead, hself]
  simp only [List.contains_iff_mem]
  split
  · next hnamed hvalue => simp [hnamed, hvalue] at hsplit
  · rcases u.candidates text with _ | ⟨a, _ | ⟨b, as⟩⟩ <;> rfl

theorem exists_toList_eq (h : ¬(text.toList.head? ≠ some '-' ∨ text = "-")) :
    ∃ c rest, text.toList = '-' :: c :: rest := by
  rw [not_or, not_not, ← String.toList_inj] at h
  cases hcs : text.toList with
  | nil => simp [hcs] at h
  | cons d cs =>
      cases cs with
      | nil => simp_all
      | cons c rest =>
          obtain rfl : d = '-' := by simpa [hcs] using h.1
          exact ⟨c, rest, rfl⟩

/-- Only what stands for no option is read as an operand. -/
theorem argument_eq_operand_iff (hu : ∀ flag ∈ u.flags, flag.WellNamed) :
    u.argument text = .ok (.operand text) ↔ u.IsOperand text := by
  by_cases hdash : text.toList.head? ≠ some '-' ∨ text = "-"
  · have hne : text ≠ "--" := by
      rintro rfl
      revert hdash
      decide
    have hoperand : u.argument text = .ok (.operand text) := by
      rw [argument, if_neg hne, if_pos hdash]
    exact iff_of_true hoperand (hdash.imp_right .inl)
  · obtain ⟨c, rest, htext⟩ := exists_toList_eq hdash
    have hcond : u.IsOperand text ↔
        (isNegativeNumber text = true ∨ ' ' ∈ text.toList) ∧ u.candidates text = [] := by
      rw [candidates_eq_nil_iff hu htext, IsOperand, ← or_assoc, or_iff_right hdash]
    rw [hcond]
    by_cases hne : text = "--"
    · subst hne
      refine iff_of_false (by simp [argument]) fun h => ?_
      exact absurd h.1 (by decide)
    cases hself : u.named text with
    | some flag =>
        have hnot : u.candidates text ≠ [] := fun hnil =>
          (candidates_eq_nil_iff hu htext).mp hnil flag (mem_of_named hself).1 text
            (mem_of_named hself).2 (standsFor_self text)
        simp [argument_of_named htext hne hself, hnot]
    | none =>
        by_cases hsplit : u.named (splitValue text).1 = none ∨ (splitValue text).2 = none
        · rw [argument_of_candidates htext hne hself hsplit]
          split
          · next a hone =>
            obtain ⟨flag, -, name, -, value, rfl, -⟩ :=
              mem_candidates (hone ▸ List.mem_singleton_self a)
            simp [hone]
          · next hmany => simp [hmany]
          · next hnil => simp [hnil, or_iff_not_imp_left]
        · rw [not_or] at hsplit
          obtain ⟨flag, hnamed⟩ := Option.ne_none_iff_exists'.mp hsplit.1
          obtain ⟨value, hvalue⟩ := Option.ne_none_iff_exists'.mp hsplit.2
          have hnot : u.candidates text ≠ [] := fun hnil =>
            (candidates_eq_nil_iff hu htext).mp hnil flag (mem_of_named hnamed).1 _
              (mem_of_named hnamed).2 (standsFor_splitValue text)
          simp [argument_of_splitValue htext hne hself hnamed hvalue, hnot]

/-- An argument ends the options, is an operand, is not known, or is one of the options. -/
theorem argument_cases {a : Argument α} (h : u.argument text = .ok a) :
    text = "--" ∧ a = .terminator ∨ a = .operand text ∨ a = .unknown ∨
      ∃ flag ∈ u.flags, ∃ name ∈ flag.names, ∃ value, a = .option flag name value := by
  by_cases hne : text = "--"
  · rw [argument, if_pos hne] at h
    exact .inl ⟨hne, (Except.ok.inj h).symm⟩
  by_cases hdash : text.toList.head? ≠ some '-' ∨ text = "-"
  · rw [argument, if_neg hne, if_pos hdash] at h
    exact .inr (.inl (Except.ok.inj h).symm)
  obtain ⟨c, rest, htext⟩ := exists_toList_eq hdash
  cases hself : u.named text with
  | some flag =>
      rw [argument_of_named htext hne hself] at h
      obtain ⟨hflag, hname⟩ := mem_of_named hself
      exact .inr (.inr (.inr ⟨flag, hflag, text, hname, none, (Except.ok.inj h).symm⟩))
  | none =>
      by_cases hsplit : u.named (splitValue text).1 = none ∨ (splitValue text).2 = none
      · rw [argument_of_candidates htext hne hself hsplit] at h
        split at h
        · next b hone =>
          obtain rfl := Except.ok.inj h
          obtain ⟨flag, hflag, name, hname, value, rfl, -⟩ :=
            mem_candidates (hone ▸ List.mem_singleton_self b)
          exact .inr (.inr (.inr ⟨flag, hflag, name, hname, value, rfl⟩))
        · contradiction
        · split at h
          · exact .inr (.inl (Except.ok.inj h).symm)
          · exact .inr (.inr (.inl (Except.ok.inj h).symm))
      · rw [not_or] at hsplit
        obtain ⟨flag, hnamed⟩ := Option.ne_none_iff_exists'.mp hsplit.1
        obtain ⟨value, hvalue⟩ := Option.ne_none_iff_exists'.mp hsplit.2
        rw [argument_of_splitValue htext hne hself hnamed hvalue] at h
        obtain ⟨hflag, hname⟩ := mem_of_named hnamed
        exact .inr (.inr (.inr ⟨flag, hflag, _, hname, _, (Except.ok.inj h).symm⟩))

theorem eq_of_argument_eq_terminator (h : u.argument text = .ok .terminator) : text = "--" := by
  obtain ⟨htext, -⟩ | h | h | ⟨_, _, _, _, _, h⟩ := argument_cases h
  · exact htext
  · contradiction
  · contradiction
  · contradiction

theorem isOperand_of_argument (hu : ∀ flag ∈ u.flags, flag.WellNamed) {t : String}
    (h : u.argument text = .ok (.operand t)) : t = text ∧ u.IsOperand text := by
  obtain ⟨-, heq⟩ | heq | heq | ⟨_, _, _, _, _, heq⟩ := argument_cases h
  · contradiction
  · obtain rfl := Argument.operand.inj heq
    exact ⟨rfl, (argument_eq_operand_iff hu).mp h⟩
  · contradiction
  · contradiction

/-! ### One more option -/

variable {f : Flag α} {name : String}

theorem named_adding (u : Usage α) (f : Flag α) (name : String) :
    (u.adding f).named name = (u.named name).or (if name ∈ f.names then some f else none) := by
  simp only [named, adding, List.find?_append, List.find?_cons, List.find?_nil]
  congr 1
  split <;> simp_all

theorem not_mem_names_of_isSwitch (hf : f.IsSwitch) (c : Char) :
    String.ofList ['-', c] ∉ f.names := by
  intro hmem
  obtain ⟨_, _, hname⟩ := hf.long _ hmem
  simp at hname

theorem named_adding_short (hf : f.IsSwitch) (c : Char) :
    (u.adding f).named (String.ofList ['-', c]) = u.named (String.ofList ['-', c]) := by
  rw [named_adding, if_neg (not_mem_names_of_isSwitch hf c), Option.or_none]

theorem candidates_adding (hf : f.IsSwitch) :
    (u.adding f).candidates text =
      u.candidates text ++ ({ u with flags := [f] } : Usage α).candidates text := by
  by_cases hdash : ∃ c rest, text.toList = '-' :: c :: rest
  · obtain ⟨c, rest, htext⟩ := hdash
    by_cases hc : c = '-'
    · subst hc
      simp only [candidates_long htext, completions, adding, List.flatMap_append]
    · have hnone : ({ u with flags := [f] } : Usage α).named (String.ofList ['-', c]) = none :=
        named_eq_none_iff.mpr (by simpa using not_mem_names_of_isSwitch hf c)
      simp only [candidates_short htext hc, named_adding_short hf, hnone, List.append_nil]
  · simp only [not_exists] at hdash
    simp only [candidates_of_head?_ne hdash, List.append_nil]

theorem isNegativeNumber_eq_false (h : text.toList = '-' :: '-' :: rest) :
    isNegativeNumber text = false := by
  obtain ⟨rest', hrest⟩ := Text.exists_dropFinalNewline_cons (by decide : '-' ≠ '\n') rest
  have hdropped : Text.dropFinalNewline text.toList = '-' :: '-' :: rest' := by
    rw [h, Text.dropFinalNewline_cons_cons, hrest]
  have hhyphen : Text.isDigit '-' = false := by decide
  simp only [isNegativeNumber, hdropped]
  split
  · simp [hhyphen]
  · next whole fraction hcut =>
    obtain ⟨hwhole, -⟩ := Text.cutFirst?_eq_some_iff.mp hcut
    cases whole with
    | nil => simp at hwhole
    | cons c whole =>
        obtain ⟨rfl, -⟩ := List.cons.inj hwhole
        simp [hhyphen]

/-- What begins a name of a switch is neither a number nor in two words. -/
theorem not_isNegativeNumber_or_blank (hf : f.IsSwitch) (hname : name ∈ f.names)
    (h : text.toList = '-' :: c :: rest) (hfront : text.toList <+: name.toList) :
    ¬(isNegativeNumber text = true ∨ ' ' ∈ text.toList) := by
  rintro (hnumber | hblank)
  · obtain ⟨_, _, hlong⟩ := hf.long name hname
    obtain ⟨back, hback⟩ := hfront
    obtain ⟨rfl, -⟩ : c = '-' ∧ _ := by simpa [h, hlong] using hback
    rw [isNegativeNumber_eq_false h] at hnumber
    contradiction
  · exact hf.blankless name hname (hfront.subset hblank)

theorem argument_adding_of_candidates (hf : f.IsSwitch) {a b : Argument α}
    (h : text.toList = '-' :: c :: rest) (hne : text ≠ "--")
    (hself : u.named text = none) (hself' : (u.adding f).named text = none)
    (hsplit : u.named (splitValue text).1 = none ∨ (splitValue text).2 = none)
    (hsplit' : (u.adding f).named (splitValue text).1 = none ∨ (splitValue text).2 = none)
    (ha : u.argument text = .ok a) (hb : (u.adding f).argument text = .ok b) :
    a = b ∨ a.IsRefused ∨ b.IsRefused := by
  rw [argument_of_candidates h hne hself hsplit] at ha
  rw [argument_of_candidates h hne hself' hsplit', candidates_adding hf] at hb
  -- Only where the new option is the one candidate do the two readings differ.
  cases hnew : ({ u with flags := [f] } : Usage α).candidates text with
  | nil =>
      rw [hnew, List.append_nil] at hb
      exact .inl (Except.ok.inj (ha.symm.trans hb))
  | cons e es =>
      rw [hnew] at hb
      cases hold : u.candidates text with
      | cons d ds => cases ds <;> simp [hold] at hb
      | nil =>
          obtain ⟨flag, hflag, name, hname, value, rfl, hfront⟩ :=
            mem_candidates (hnew ▸ List.mem_cons_self)
          obtain rfl := List.mem_singleton.mp hflag
          cases es with
          | cons _ _ => simp [hold] at hb
          | nil =>
              obtain rfl : _ = b := by simpa [hold] using hb
              cases value with
              | some value => exact .inr (.inr (.value hf hname))
              | none =>
                  -- Without the option nothing makes an operand of an abbreviation of its name.
                  have hnot := not_isNegativeNumber_or_blank hf hname h (hfront rfl)
                  obtain rfl : _ = a := by simpa [hold, hnot] using ha
                  exact .inr (.inl .unknown)

/-- An argument that is accepted with and without one more option is read alike. -/
theorem argument_adding (hf : f.IsSwitch)
    (hnew : ∀ name ∈ f.names, u.argument name = .ok .unknown) {a b : Argument α}
    (ha : u.argument text = .ok a) (hb : (u.adding f).argument text = .ok b) :
    a = b ∨ a.IsRefused ∨ b.IsRefused := by
  by_cases hdash : text = "--" ∨ text.toList.head? ≠ some '-' ∨ text = "-"
  · have halike : (u.adding f).argument text = u.argument text := by
      unfold argument
      obtain hterminator | hdash := hdash
      · rw [if_pos hterminator, if_pos hterminator]
      · rw [if_pos hdash, if_pos hdash]
    exact .inl (Except.ok.inj (ha.symm.trans (halike.symm.trans hb)))
  obtain ⟨hne, hdash⟩ := not_or.mp hdash
  obtain ⟨c, rest, htext⟩ := exists_toList_eq hdash
  -- A name, then a name with a value, then an abbreviation: the old options come first in each.
  have hself := named_adding u f text
  have hfront := named_adding u f (splitValue text).1
  cases hu : u.named text with
  | some flag =>
      rw [argument_of_named htext hne hu] at ha
      rw [hu, Option.some_or] at hself
      rw [argument_of_named htext hne hself] at hb
      exact .inl (Except.ok.inj (ha.symm.trans hb))
  | none =>
      by_cases hname : text ∈ f.names
      · obtain rfl := Except.ok.inj (ha.symm.trans (hnew text hname))
        exact .inr (.inl .unknown)
      rw [hu, if_neg hname, Option.or_none] at hself
      cases hvalue : (splitValue text).2 with
      | none =>
          exact argument_adding_of_candidates hf htext hne hu hself (.inr hvalue) (.inr hvalue)
            ha hb
      | some value =>
          cases hold : u.named (splitValue text).1 with
          | some flag =>
              rw [argument_of_splitValue htext hne hu hold hvalue] at ha
              rw [hold, Option.some_or] at hfront
              rw [argument_of_splitValue htext hne hself hfront hvalue] at hb
              exact .inl (Except.ok.inj (ha.symm.trans hb))
          | none =>
              by_cases hmem : (splitValue text).1 ∈ f.names
              · rw [hold, if_pos hmem, Option.none_or] at hfront
                rw [argument_of_splitValue htext hne hself hfront hvalue] at hb
                obtain rfl := Except.ok.inj hb
                exact .inr (.inr (.value hf hmem))
              · rw [hold, if_neg hmem, Option.or_none] at hfront
                exact argument_adding_of_candidates hf htext hne hu hself (.inl hold)
                  (.inl hfront) ha hb

end Usage

end InstrTable.CommandLine
