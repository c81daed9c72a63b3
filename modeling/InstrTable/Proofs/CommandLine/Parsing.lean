import InstrTable.Proofs.CommandLine.Usage

/-!
All arguments of a command together. One more option leaves what they are read as alone.
-/

namespace InstrTable.CommandLine

section

variable {ε α β : Type} {x : Except ε α} {g : α → Except ε β}

theorem bind_eq_ok_iff {b : β} : x >>= g = .ok b ↔ ∃ a, x = .ok a ∧ g a = .ok b := by
  cases x <;> simp [bind, Except.bind]

end

namespace Parsed

variable {α : Type} (p : Parsed α) (options : List (α × String))

@[simp] theorem after_options : (p.after options).options = options ++ p.options := rfl

@[simp] theorem after_operands : (p.after options).operands = p.operands := rfl

@[simp] theorem after_isMisused : (p.after options).isMisused = p.isMisused := rfl

@[simp] theorem misused_options : p.misused.options = p.options := rfl

@[simp] theorem misused_isMisused : p.misused.isMisused = true := rfl

@[simp] theorem stopped_options : (stopped : Parsed α).options = [] := rfl

@[simp] theorem stopped_isMisused : (stopped : Parsed α).isMisused = true := rfl

end Parsed

namespace Usage

variable {α : Type} {u : Usage α} {f : Flag α} {texts : List String} {as bs : List (Argument α)}
  {operands : Option (List String)} {p p' : Parsed α}

/-- In front of the double hyphen there is an argument that no usage accepts. -/
def HasRefused (as : List (Argument α)) : Prop :=
  ∃ front a back, as = front ++ a :: back ∧ .terminator ∉ front ∧ a.IsRefused

theorem arguments_cons_eq_ok_iff {text : String} :
    u.arguments (text :: texts) = .ok as ↔
      ∃ a, u.argument text = .ok a ∧
        ((a = .terminator ∧ as = .terminator :: texts.map .operand) ∨
          a ≠ .terminator ∧ ∃ back, u.arguments texts = .ok back ∧ as = a :: back) := by
  rw [arguments]
  cases u.argument text with
  | error e => simp [bind, Except.bind]
  | ok a =>
      cases a <;> cases u.arguments texts <;>
        simp [bind, Except.bind, pure, Except.pure, @eq_comm _ as]

theorem not_hasRefused_nil : ¬HasRefused ([] : List (Argument α)) := by
  rintro ⟨front, a, back, has, -⟩
  simp at has

theorem hasRefused_cons_iff {a : Argument α} :
    HasRefused (a :: as) ↔ a.IsRefused ∨ a ≠ .terminator ∧ HasRefused as := by
  constructor
  · rintro ⟨front, b, back, has, hfront, hb⟩
    obtain ⟨rfl, hcons⟩ | ⟨front, rfl, rfl⟩ := List.cons_eq_append_iff.mp has
    · obtain ⟨rfl, -⟩ := List.cons.inj hcons
      exact .inl hb
    · simp only [List.mem_cons, not_or] at hfront
      exact .inr ⟨Ne.symm hfront.1, front, b, back, rfl, hfront.2, hb⟩
  · rintro (ha | ⟨ha, front, b, back, rfl, hfront, hb⟩)
    · exact ⟨[], a, as, rfl, List.not_mem_nil, ha⟩
    · exact ⟨a :: front, b, back, rfl, by simp [hfront, Ne.symm ha], hb⟩

theorem hasRefused_of_arguments {text : String} {a : Argument α} (ha : u.argument text = .ok a)
    (hrefused : a.IsRefused) (has : u.arguments (text :: texts) = .ok as) : HasRefused as := by
  obtain ⟨b, hb, hcases⟩ := arguments_cons_eq_ok_iff.mp has
  obtain rfl := Except.ok.inj (ha.symm.trans hb)
  obtain ⟨rfl, -⟩ | ⟨-, back, -, rfl⟩ := hcases
  · cases hrefused
  · exact hasRefused_cons_iff.mpr (.inl hrefused)

/-- Arguments that are accepted with and without one more option are read alike. -/
theorem arguments_adding (hf : f.IsSwitch) (hnew : ∀ name ∈ f.names, u.argument name = .ok .unknown)
    (has : u.arguments texts = .ok as) (hbs : (u.adding f).arguments texts = .ok bs) :
    as = bs ∨ HasRefused as ∨ HasRefused bs := by
  induction texts generalizing as bs with
  | nil =>
      obtain rfl := Except.ok.inj has
      obtain rfl := Except.ok.inj hbs
      exact .inl rfl
  | cons text texts ih =>
      obtain ⟨a, ha, has'⟩ := arguments_cons_eq_ok_iff.mp has
      obtain ⟨b, hb, hbs'⟩ := arguments_cons_eq_ok_iff.mp hbs
      obtain rfl | hrefused | hrefused := argument_adding hf hnew ha hb
      · obtain ⟨rfl, rfl⟩ | ⟨hne, as, hold, rfl⟩ := has'
        · obtain ⟨-, rfl⟩ | ⟨hne, -⟩ := hbs'
          · exact .inl rfl
          · exact absurd rfl hne
        · obtain ⟨rfl, -⟩ | ⟨-, bs, hnew, rfl⟩ := hbs'
          · exact absurd rfl hne
          · obtain rfl | hrefused | hrefused := ih hold hnew
            · exact .inl rfl
            · exact .inr (.inl (hasRefused_cons_iff.mpr (.inr ⟨hne, hrefused⟩)))
            · exact .inr (.inr (hasRefused_cons_iff.mpr (.inr ⟨hne, hrefused⟩)))
      · exact .inr (.inl (hasRefused_of_arguments ha hrefused has))
      · exact .inr (.inr (hasRefused_of_arguments hb hrefused hbs))

theorem option_of_isSwitch {name value : String} (hf : f.IsSwitch) (hname : name ∈ f.names) :
    u.option f name (some value) = .error .misuse := by
  obtain ⟨c, rest, hlong⟩ := hf.long name hname
  simp [option, hf.takesValue_eq, hlong]

theorem hasRefused_afterRun (h : HasRefused as) : HasRefused (afterRun as) := by
  induction as with
  | nil => exact absurd h not_hasRefused_nil
  | cons a as ih =>
      cases a with
      | operand text =>
          obtain ha | ⟨-, h⟩ := hasRefused_cons_iff.mp h
          · cases ha
          · exact ih h
      | terminator =>
          obtain ha | ⟨ha, -⟩ := hasRefused_cons_iff.mp h
          · cases ha
          · exact absurd rfl ha
      | option flag name value => exact h
      | unknown => exact h

/-- What no usage accepts is misused wherever it stands. -/
theorem isMisused_collect (u : Usage α) (operands : Option (List String)) (as : List (Argument α)) :
    HasRefused as → (u.collect operands as).isMisused = true := by
  -- An operand takes its whole run along, so the induction is that of `collect`, not of the list.
  fun_induction collect u operands as with
  | case1 => exact fun h => absurd h not_hasRefused_nil
  | case2 | case3 | case5 | case7 | case9 | case11 => exact fun _ => rfl
  | case4 operands flag name value rest options hoption ih =>
      intro h
      obtain ha | ⟨-, h⟩ := hasRefused_cons_iff.mp h
      · cases ha with
        | value hf hname => simp [option_of_isSwitch hf hname] at hoption
      · exact ih h
  | case6 operands flag name value options key hoption v rest ih =>
      intro h
      obtain ha | ⟨-, h⟩ := hasRefused_cons_iff.mp h
      · cases ha with
        | value hf hname => simp [option_of_isSwitch hf hname] at hoption
      · obtain ha | ⟨-, h⟩ := hasRefused_cons_iff.mp h
        · cases ha
        · exact ih h
  | case8 operands text rest run haccepts ih =>
      intro h
      obtain ha | ⟨-, h⟩ := hasRefused_cons_iff.mp h
      · cases ha
      · exact ih (hasRefused_afterRun h)
  | case10 operands rest run haccepts ih =>
      intro h
      obtain ha | ⟨ha, -⟩ := hasRefused_cons_iff.mp h
      · cases ha
      · exact absurd rfl ha

theorem cluster_adding (hf : f.IsSwitch) (cs : List Char) :
    (u.adding f).cluster cs = u.cluster cs := by
  have hvalue : (u.adding f).clusteredValue = u.clusteredValue := rfl
  have hleft : (u.adding f).mayBeLeft = u.mayBeLeft := rfl
  induction cs with
  | nil => rfl
  | cons c cs ih => simp only [cluster, named_adding_short hf, hvalue, hleft, ih]

theorem option_adding (hf : f.IsSwitch) : (u.adding f).option = u.option := by
  funext flag name value
  unfold option
  simp only [cluster_adding hf]

theorem collect_adding (hf : f.IsSwitch) (operands : Option (List String))
    (as : List (Argument α)) : (u.adding f).collect operands as = u.collect operands as := by
  induction operands, as using collect.induct u with
  | case1 operands =>
      unfold collect
      rfl
  | case2 operands rest ih =>
      rw [collect, collect, ih]
  | case3 operands flag name value rest e hoption => simp [collect, option_adding hf, hoption]
  | case4 operands flag name value rest options hoption ih =>
      simp [collect, option_adding hf, hoption, ih]
  | case5 operands flag name value rest options hoption ih =>
      simp [collect, option_adding hf, hoption, ih]
  | case6 operands flag name value options key hoption v rest ih =>
      simp [collect, option_adding hf, hoption, ih]
  | case7 operands flag name value rest options key hoption hnot =>
      unfold collect
      simp only [option_adding hf, hoption]
  | case8 operands text rest run haccepts ih =>
      unfold collect
      exact (if_pos haccepts).trans (ih.trans (if_pos haccepts).symm)
  | case9 operands text rest run haccepts ih =>
      unfold collect
      exact (if_neg haccepts).trans ((congrArg Parsed.misused ih).trans (if_neg haccepts).symm)
  | case10 operands rest run haccepts ih =>
      unfold collect
      exact (if_pos haccepts).trans (ih.trans (if_pos haccepts).symm)
  | case11 operands rest run haccepts ih =>
      unfold collect
      exact (if_neg haccepts).trans ((congrArg Parsed.misused ih).trans (if_neg haccepts).symm)

theorem parse_eq_ok_iff :
    u.parse texts = .ok p ↔ ∃ as, u.arguments texts = .ok as ∧ u.collect none as = p := by
  unfold parse
  cases u.arguments texts <;> simp [Except.map]

/-- One more option without a value does not change what is read of arguments that are understood
with it and without it. -/
theorem parse_adding (hf : f.IsSwitch) (hnew : ∀ name ∈ f.names, u.argument name = .ok .unknown)
    (hp : u.parse texts = .ok p) (hp' : (u.adding f).parse texts = .ok p')
    (hused : p.isMisused = false) (hused' : p'.isMisused = false) : p = p' := by
  obtain ⟨as, has, rfl⟩ := parse_eq_ok_iff.mp hp
  obtain ⟨bs, hbs, rfl⟩ := parse_eq_ok_iff.mp hp'
  obtain rfl | hrefused | hrefused := arguments_adding hf hnew has hbs
  · exact (collect_adding hf none as).symm
  · simp [isMisused_collect _ _ _ hrefused] at hused
  · simp [isMisused_collect _ _ _ hrefused] at hused'

/-! ### Operands -/

/-- No operands are found where there are none. -/
theorem operands_of_collect (u : Usage α) (operands : Option (List String))
    (as : List (Argument α)) : (∀ a ∈ as, (∀ text, a ≠ .operand text) ∧ a ≠ .terminator) →
      (u.collect operands as).isMisused = false →
        (u.collect operands as).operands = operands.getD [] := by
  fun_induction collect u operands as with
  | case1 | case2 | case3 | case5 | case7 => simp
  | case4 operands flag name value rest options hoption ih =>
      exact fun has => ih (List.forall_mem_cons.mp has).2
  | case6 operands flag name value options key hoption v rest ih =>
      exact fun has => absurd rfl ((has (.operand v) (by simp)).1 v)
  | case8 operands text rest | case9 operands text rest =>
      exact fun has => absurd rfl ((has (.operand text) List.mem_cons_self).1 text)
  | case10 | case11 =>
      exact fun has => absurd rfl (has .terminator List.mem_cons_self).2

/-- Behind the double hyphen there are only operands. -/
theorem operands_of_collect_terminator
    (hp : u.collect none (.terminator :: texts.map .operand) = p) (hused : p.isMisused = false) :
    p.operands = texts := by
  have hrun : operandRun (.terminator :: texts.map (@Argument.operand α)) = texts := by
    rw [operandRun, List.filterMap_map]
    exact List.filterMap_some
  rw [collect, hrun] at hp
  split at hp
  · obtain rfl := hp
    exact operands_of_collect u (some texts) [] (by simp) hused
  · obtain rfl := hp
    contradiction

/-! ### Keys -/

/-- A key of one of the options. -/
def HasKey (u : Usage α) (key : α) : Prop := ∃ flag ∈ u.flags, flag.key = key

/-- The value that is still to come is that of one of the options. -/
def KeepsKeys (u : Usage α) : List (α × String) × Ending α → Prop
  | (options, ending) => (∀ o ∈ options, u.HasKey o.1) ∧ ∀ key, ending = .value key → u.HasKey key

variable {flag : Flag α} {name text : String} {value : Option String}
  {r : List (α × String) × Ending α}

theorem mem_flags_of_arguments (h : u.arguments texts = .ok as)
    (hmem : .option flag name value ∈ as) : flag ∈ u.flags := by
  induction texts generalizing as with
  | nil =>
      obtain rfl := Except.ok.inj h
      contradiction
  | cons text texts ih =>
      obtain ⟨a, ha, ⟨rfl, rfl⟩ | ⟨-, back, hback, rfl⟩⟩ := arguments_cons_eq_ok_iff.mp h
      · simp at hmem
      · obtain rfl | hmem := List.mem_cons.mp hmem
        · obtain ⟨-, h⟩ | h | h | ⟨flag, hflag, _, -, _, h⟩ := argument_cases ha
          · contradiction
          · contradiction
          · contradiction
          · obtain ⟨rfl, -⟩ := Argument.option.inj h
            exact hflag
        · exact ih hback hmem

theorem keepsKeys_of_cluster {cs : List Char} (h : u.cluster cs = .ok r) : u.KeepsKeys r := by
  induction cs generalizing r with
  | nil =>
      obtain rfl := Except.ok.inj h
      simp [KeepsKeys]
  | cons c cs ih =>
      unfold cluster at h
      split at h
      · split at h
        · obtain rfl := Except.ok.inj h
          simp [KeepsKeys]
        · contradiction
      · next flag hnamed =>
        have hkey : u.HasKey flag.key := ⟨flag, (mem_of_named hnamed).1, rfl⟩
        split at h
        · split at h
          · obtain rfl := Except.ok.inj h
            simpa [KeepsKeys] using hkey
          · obtain rfl := Except.ok.inj h
            simpa [KeepsKeys] using hkey
        · obtain ⟨⟨options, ending⟩, hrest, h⟩ := bind_eq_ok_iff.mp h
          obtain rfl := Except.ok.inj h
          obtain ⟨hoptions, hending⟩ := ih hrest
          exact ⟨List.forall_mem_cons.mpr ⟨hkey, hoptions⟩, hending⟩

theorem keepsKeys_of_option (hflag : flag ∈ u.flags) (h : u.option flag name value = .ok r) :
    u.KeepsKeys r := by
  have hkey : u.HasKey flag.key := ⟨flag, hflag, rfl⟩
  unfold option at h
  split at h
  · obtain rfl := Except.ok.inj h
    simpa [KeepsKeys] using hkey
  · obtain rfl := Except.ok.inj h
    simpa [KeepsKeys] using hkey
  · obtain rfl := Except.ok.inj h
    simpa [KeepsKeys] using hkey
  · split at h
    · split at h
      · contradiction
      · obtain ⟨⟨options, ending⟩, hrest, h⟩ := bind_eq_ok_iff.mp h
        obtain rfl := Except.ok.inj h
        obtain ⟨hoptions, hending⟩ := keepsKeys_of_cluster hrest
        exact ⟨List.forall_mem_cons.mpr ⟨hkey, hoptions⟩, hending⟩
    · contradiction

theorem afterRun_subset (as : List (Argument α)) : afterRun as ⊆ as := by
  induction as with
  | nil => exact List.Subset.refl _
  | cons a as ih =>
      cases a with
      | operand text => exact List.subset_cons_of_subset _ ih
      | terminator => exact List.nil_subset _
      | option flag name value => exact List.Subset.refl _
      | unknown => exact List.Subset.refl _

/-- Only options of the usage are found. -/
theorem hasKey_of_collect (u : Usage α) (operands : Option (List String))
    (as : List (Argument α)) : (∀ flag name value, .option flag name value ∈ as → flag ∈ u.flags) →
      ∀ o ∈ (u.collect operands as).options, u.HasKey o.1 := by
  fun_induction collect u operands as with
  | case1 | case3 | case7 => simp
  | case2 operands rest ih =>
      exact fun hflags => ih fun f n v h => hflags f n v (List.mem_cons_of_mem _ h)
  | case4 operands flag name value rest options hoption ih
  | case5 operands flag name value rest options hoption ih =>
      intro hflags
      obtain ⟨hoptions, -⟩ := keepsKeys_of_option (hflags _ _ _ List.mem_cons_self) hoption
      have hrest := ih fun f n v h => hflags f n v (List.mem_cons_of_mem _ h)
      exact List.forall_mem_append.mpr ⟨hoptions, hrest⟩
  | case6 operands flag name value options key hoption v rest ih =>
      intro hflags
      obtain ⟨hoptions, hkey⟩ := keepsKeys_of_option (hflags _ _ _ List.mem_cons_self) hoption
      have hrest := ih fun f n v h =>
        hflags f n v (List.mem_cons_of_mem _ (List.mem_cons_of_mem _ h))
      have hlast : ∀ o ∈ options ++ [(key, v)], u.HasKey o.1 :=
        List.forall_mem_append.mpr ⟨hoptions, List.forall_mem_singleton.mpr (hkey key rfl)⟩
      exact List.forall_mem_append.mpr ⟨hlast, hrest⟩
  | case8 operands text rest run haccepts ih | case9 operands text rest run haccepts ih =>
      exact fun hflags => ih fun f n v h =>
        hflags f n v (List.mem_cons_of_mem _ (afterRun_subset rest h))
  | case10 operands rest run haccepts ih | case11 operands rest run haccepts ih =>
      exact fun _ => ih (by simp)

theorem hasKey_of_parse (h : u.parse texts = .ok p) : ∀ o ∈ p.options, u.HasKey o.1 := by
  obtain ⟨as, has, rfl⟩ := parse_eq_ok_iff.mp h
  exact hasKey_of_collect u none as fun f n v => mem_flags_of_arguments has

end Usage

end InstrTable.CommandLine
