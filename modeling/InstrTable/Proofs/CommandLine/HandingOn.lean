import InstrTable.Proofs.CommandLine.Outcomes
import InstrTable.Proofs.CommandLine.Parsing

/-!
The compile command reads its arguments, writes what it has read as new arguments, and hands these
on to the compiler. Both ask for the same compilation exactly if the compiler reads the target and
the file as operands.
-/

namespace InstrTable

namespace Path

variable {s directory : String} {cs : List Char} {ch : Char}

theorem root_of_head?_ne (h : cs.head? ≠ some '/') : root cs = "" := by
  cases cs with
  | nil => rfl
  | cons c cs =>
      have hc : c ≠ '/' := by simpa using h
      unfold root
      split <;> simp_all

theorem head?_root (h : cs.head? = some '/') : (root cs).toList.head? = some '/' := by
  obtain ⟨cs, rfl⟩ := List.head?_eq_some_iff.mp h
  unfold root
  split <;> simp_all

theorem head?_intercalate {p : String} (ps : List String) (h : p.toList.head? = some ch) :
    ("/".intercalate (p :: ps)).toList.head? = some ch := by
  have hjoined : ("/".intercalate (p :: ps)).toList = Text.joined '/' (p.toList :: ps.map _) :=
    toList_intercalate_toString '/' (p :: ps)
  obtain ⟨cs, hp⟩ := List.head?_eq_some_iff.mp h
  rw [hjoined, hp]
  cases ps <;> rfl

theorem head?_normal (h : (root s.toList ++ "/".intercalate (parts s)).toList.head? = some ch) :
    (normal s).toList.head? = some ch := by
  unfold normal
  dsimp only
  split
  · next hempty =>
    rw [hempty] at h
    contradiction
  · exact h

/-- What begins with a hyphen still does without the parts that lead nowhere. -/
theorem head?_normal_of_hyphen (h : s.toList.head? = some '-') :
    (normal s).toList.head? = some '-' := by
  obtain ⟨cs, hs⟩ := List.head?_eq_some_iff.mp h
  obtain ⟨p, ps, hpieces⟩ := List.exists_cons_of_ne_nil (Text.pieces_ne_nil '/' cs)
  -- The first piece is not empty and no dot, so it stays.
  have hkept : String.ofList ('-' :: p) ≠ "" ∧ String.ofList ('-' :: p) ≠ "." := by
    simp [← String.toList_inj]
  have hparts : ∃ rest, parts s = String.ofList ('-' :: p) :: rest := by
    rw [parts, piecesOf, hs, Text.pieces, if_neg (by decide), hpieces, Text.extendHead_cons,
      List.map_cons, List.singleton_append]
    exact ⟨_, List.filter_cons_of_pos (by simpa using hkept)⟩
  obtain ⟨rest, hrest⟩ := hparts
  refine head?_normal ?_
  rw [root_of_head?_ne (by simp [h]), hrest, String.empty_append]
  exact head?_intercalate rest (by simp)

/-- From an absolute directory there are only absolute paths. -/
theorem head?_under (path : String) (h : directory.toList.head? = some '/') :
    (under directory path).toList.head? = some '/' := by
  unfold under
  split
  · exact head?_intercalate _ h
  · next habsolute =>
    have hroot := head?_root (not_not.mp (mt root_of_head?_ne habsolute))
    refine head?_normal ?_
    rw [String.toList_append, List.head?_append, hroot, Option.some_or]

end Path

namespace CommandLine

open OptionKey

namespace Compilation

variable {clustering : Clustering} {c c' : Compilation} {texts : List String}

/-- What the compile command accepts. -/
def commandUsage (clustering : Clustering) : Usage OptionKey :=
  ⟨[help?, targetFlag, verboseFlag, strictFlag], .atMostOne, clustering⟩

/-- What the compiler accepts. -/
def compilerUsage (clustering : Clustering) : Usage OptionKey :=
  (commandUsage clustering).adding testFlag

/-- The compiler reads the target and the file as operands. -/
def IsHandedOn (clustering : Clustering) (c : Compilation) : Prop :=
  (compilerUsage clustering).IsOperand c.target ∧
    (c.file = "" ∨ (compilerUsage clustering).IsOperand c.file)

instance (clustering : Clustering) (c : Compilation) : Decidable (c.IsHandedOn clustering) :=
  inferInstanceAs (Decidable (_ ∧ (_ ∨ _)))

theorem isSwitch_testFlag : testFlag.IsSwitch where
  takesValue_eq := rfl
  long := by
    intro name hname
    obtain rfl := List.mem_singleton.mp hname
    exact ⟨'t', _, rfl⟩
  blankless := by decide

theorem wellNamed_of_mem : ∀ flag ∈ (compilerUsage clustering).flags, flag.WellNamed := by
  have hshort (flag : Flag OptionKey) (c : Char) (hc : c ≠ '-') (long : String)
      (hlong : ['-', '-'] <+: long.toList) (hnames : flag.names = [String.ofList ['-', c], long]) :
      flag.WellNamed := by
    intro name hname
    rw [hnames] at hname
    obtain rfl | rfl : name = String.ofList ['-', c] ∨ name = long := by simpa using hname
    · exact .inr ⟨c, hc, by simp⟩
    · exact .inl hlong
  have hlong (flag : Flag OptionKey) (h : ∀ name ∈ flag.names, ['-', '-'] <+: name.toList) :
      flag.WellNamed := fun name hname => .inl (h name hname)
  simp only [compilerUsage, commandUsage, Usage.adding, List.cons_append, List.nil_append,
    List.forall_mem_cons, List.not_mem_nil, false_implies, implies_true, and_true]
  exact ⟨hshort _ 'h' (by decide) "--help" (by decide) rfl,
    hshort _ 't' (by decide) "--target" (by decide) rfl,
    hshort _ 'v' (by decide) "--verbose" (by decide) rfl, hlong _ (by decide), hlong _ (by decide)⟩

/-- The compilation that is asked for. -/
def ofParsed (p : Parsed OptionKey) : Compilation :=
  { file := p.operands.headD "", target := p.target, verbose := p.has .verbose,
    strict := p.has .strict, test := p.has .test }

/-- What is made of arguments that are understood and of which none asks for help. -/
theorem map_parsed_eq_ok_iff (flags : List (Flag OptionKey)) (arity : Arity)
    (g : Parsed OptionKey → Compilation) :
    (parsed clustering flags arity texts).map g = .ok c ↔
      ∃ p, (⟨help? :: flags, arity, clustering⟩ : Usage OptionKey).parse texts = .ok p ∧
        p.has .help = false ∧ p.isMisused = false ∧ g p = c := by
  unfold parsed
  cases (⟨help? :: flags, arity, clustering⟩ : Usage OptionKey).parse texts with
  | error e => simp [bind, Except.bind, Except.map]
  | ok p =>
      cases hhelp : p.has .help <;> cases hmisused : p.isMisused <;>
        simp [bind, Except.bind, Except.map, hhelp, hmisused]

theorem ofArguments_eq_ok_iff :
    ofArguments clustering texts = .ok c ↔
      ∃ p, (compilerUsage clustering).parse texts = .ok p ∧
        p.has .help = false ∧ p.isMisused = false ∧ ofParsed p = c :=
  map_parsed_eq_ok_iff [targetFlag, verboseFlag, strictFlag, testFlag] .atMostOne ofParsed

/-- The compile command has no test. -/
theorem has_test_eq_false {p : Parsed OptionKey}
    (h : (commandUsage clustering).parse texts = .ok p) : p.has .test = false := by
  have hnone : p.options.filterMap (fun o => if o.1 = .test then some o.2 else none) = [] := by
    rw [List.filterMap_eq_nil_iff]
    intro o ho
    obtain ⟨flag, hflag, hkey⟩ := Usage.hasKey_of_parse h o ho
    have hall : ∀ flag ∈ (commandUsage clustering).flags, flag.key ≠ .test := by
      simp [commandUsage, help?, targetFlag, verboseFlag, strictFlag]
    exact if_neg (hkey ▸ hall flag hflag)
  simp [Parsed.has, Parsed.value?, hnone]

theorem ofCommandArguments_eq_ok_iff :
    ofCommandArguments clustering texts = .ok c ↔
      ∃ p, (commandUsage clustering).parse texts = .ok p ∧
        p.has .help = false ∧ p.isMisused = false ∧ ofParsed p = c := by
  have hof {p : Parsed OptionKey} (hp : (commandUsage clustering).parse texts = .ok p) :
      { ofParsed p with test := false } = ofParsed p := by
    simp [ofParsed, has_test_eq_false hp]
  refine (map_parsed_eq_ok_iff [targetFlag, verboseFlag, strictFlag] .atMostOne
    fun p => { ofParsed p with test := false }).trans ?_
  refine exists_congr fun p => and_congr_right fun hp => ?_
  rw [hof hp]

/-- Arguments that the compile command and the compiler both accept ask them for the same. -/
theorem ofArguments_unique (hc : ofCommandArguments clustering texts = .ok c)
    (hc' : ofArguments clustering texts = .ok c') : c = c' := by
  obtain ⟨p, hp, -, hused, rfl⟩ := ofCommandArguments_eq_ok_iff.mp hc
  obtain ⟨p', hp', -, hused', rfl⟩ := ofArguments_eq_ok_iff.mp hc'
  have hnew : ∀ name ∈ testFlag.names,
      (commandUsage clustering).argument name = .ok .unknown := by
    intro name hname
    obtain rfl := List.mem_singleton.mp hname
    rfl
  rw [Usage.parse_adding isSwitch_testFlag hnew hp hp' hused hused']

/-! ### Arguments that are handed on -/

/-- The arguments behind the file. -/
def switches (c : Compilation) : List String :=
  (if c.verbose then ["-v"] else []) ++ if c.strict then ["--strict"] else []

theorem arguments_eq (c : Compilation) :
    c.arguments =
      "--target" :: c.target :: ((if c.file = "" then [] else [c.file]) ++ c.switches) := by
  simp [arguments, switches]

/-- What the arguments behind the file are read as. -/
def readSwitches (c : Compilation) : List (Argument OptionKey) :=
  (if c.verbose then [.option verboseFlag "-v" none] else []) ++
    if c.strict then [.option strictFlag "--strict" none] else []

theorem arguments_switches (c : Compilation) :
    (compilerUsage clustering).arguments c.switches = .ok c.readSwitches := by
  cases hv : c.verbose <;> cases hs : c.strict <;> simp [switches, readSwitches, hv, hs] <;> rfl

theorem collect_nil (operands : Option (List String)) :
    (compilerUsage clustering).collect operands [] =
      { options := [], operands := operands.getD [] } := by
  unfold Usage.collect
  rfl

theorem collect_switches (c : Compilation) (operands : Option (List String)) :
    (compilerUsage clustering).collect operands c.readSwitches =
      { options := (if c.verbose then [(.verbose, "")] else []) ++
          if c.strict then [(.strict, "")] else []
        operands := operands.getD [] } := by
  have hverbose : (compilerUsage clustering).option verboseFlag "-v" none =
      .ok ([(.verbose, "")], .nothing) := rfl
  have hstrict : (compilerUsage clustering).option strictFlag "--strict" none =
      .ok ([(.strict, "")], .nothing) := rfl
  cases hv : c.verbose <;> cases hs : c.strict <;>
    simp [readSwitches, hv, hs, Usage.collect, hverbose, hstrict, collect_nil, Parsed.after]

/-- The options of a compilation. -/
def options (c : Compilation) : List (OptionKey × String) :=
  (.target, c.target) :: (if c.verbose then [(.verbose, "")] else []) ++
    if c.strict then [(.strict, "")] else []

theorem option_target : (compilerUsage clustering).option targetFlag "--target" none =
    .ok ([], .value .target) := rfl

theorem collect_arguments (c : Compilation) (as : List (Argument OptionKey)) :
    (compilerUsage clustering).collect none
        (.option targetFlag "--target" none :: .operand c.target :: as) =
      ((compilerUsage clustering).collect none as).after [(.target, c.target)] := by
  simp [Usage.collect, option_target]

theorem collect_operand_switches (c : Compilation) (text : String) :
    (compilerUsage clustering).collect none (.operand text :: c.readSwitches) =
      (compilerUsage clustering).collect (some [text]) c.readSwitches := by
  have hrun : Usage.operandRun c.readSwitches = [] := by
    cases hv : c.verbose <;> cases hs : c.strict <;> simp [readSwitches, hv, hs, Usage.operandRun]
  have hafter : Usage.afterRun c.readSwitches = c.readSwitches := by
    cases hv : c.verbose <;> cases hs : c.strict <;> simp [readSwitches, hv, hs, Usage.afterRun]
  rw [Usage.collect, hrun, hafter]
  exact if_pos ⟨rfl, rfl⟩

/-- What is written is read as it was meant. -/
theorem parse_arguments (h : c.IsHandedOn clustering) :
    (compilerUsage clustering).parse c.arguments =
      .ok { options := c.options, operands := if c.file = "" then [] else [c.file] } := by
  obtain ⟨htarget, hfile⟩ := h
  have htarget := (Usage.argument_eq_operand_iff wellNamed_of_mem).mpr htarget
  have hread : (compilerUsage clustering).arguments c.arguments =
      .ok (.option targetFlag "--target" none :: .operand c.target ::
        ((if c.file = "" then [] else [.operand c.file]) ++ c.readSwitches)) := by
    have hrest : (compilerUsage clustering).arguments
        ((if c.file = "" then [] else [c.file]) ++ c.switches) =
        .ok ((if c.file = "" then [] else [.operand c.file]) ++ c.readSwitches) := by
      by_cases hempty : c.file = ""
      · simpa [hempty] using arguments_switches c
      · have hfile := (Usage.argument_eq_operand_iff wellNamed_of_mem).mpr
          (hfile.resolve_left hempty)
        simp only [if_neg hempty, List.singleton_append]
        exact Usage.arguments_cons_eq_ok_iff.mpr
          ⟨_, hfile, .inr ⟨by simp, _, arguments_switches c, rfl⟩⟩
    rw [arguments_eq]
    refine Usage.arguments_cons_eq_ok_iff.mpr ⟨_, rfl, .inr ⟨by simp, _, ?_, rfl⟩⟩
    exact Usage.arguments_cons_eq_ok_iff.mpr ⟨_, htarget, .inr ⟨by simp, _, hrest, rfl⟩⟩
  refine Usage.parse_eq_ok_iff.mpr ⟨_, hread, ?_⟩
  rw [collect_arguments]
  by_cases hempty : c.file = ""
  · simp [hempty, collect_switches, Parsed.after, options]
  · simp [hempty, collect_operand_switches, collect_switches, Parsed.after, options]

/-- What the compiler is asked for if it reads the target and the file as operands. -/
theorem ofArguments_arguments (h : c.IsHandedOn clustering) :
    ofArguments clustering c.arguments = .ok { c with test := false } := by
  refine ofArguments_eq_ok_iff.mpr ⟨_, parse_arguments h, ?_, rfl, ?_⟩
  · cases hv : c.verbose <;> cases hs : c.strict <;>
      simp [options, Parsed.has, Parsed.value?, hv, hs]
  · obtain ⟨file, target, verbose, strict, test⟩ := c
    by_cases hempty : file = "" <;> cases verbose <;> cases strict <;>
      simp [ofParsed, options, Parsed.has, Parsed.value?, Parsed.target, hempty]

/-- The compiler goes on behind the target only if that is an operand. -/
theorem exists_of_collect_target {as : List (Argument OptionKey)} {p : Parsed OptionKey}
    (hp : (compilerUsage clustering).collect none (.option targetFlag "--target" none :: as) = p)
    (hused : p.isMisused = false) : ∃ text rest, as = .operand text :: rest := by
  unfold Usage.collect at hp
  rw [option_target] at hp
  dsimp only at hp
  split at hp
  · exact ⟨_, _, rfl⟩
  · obtain rfl := hp
    contradiction

theorem switches_headD (c : Compilation) :
    c.switches.headD "" = "" ∨ c.switches.headD "" = "-v" ∨ c.switches.headD "" = "--strict" := by
  cases hv : c.verbose <;> cases hs : c.strict <;> simp [switches, hv, hs]

/-- What the compiler does with a file that it does not read as an operand. -/
theorem headD_of_not_isOperand {as : List (Argument OptionKey)} {p : Parsed OptionKey}
    (h : ¬(compilerUsage clustering).IsOperand c.file)
    (has : (compilerUsage clustering).arguments (c.file :: c.switches) = .ok as)
    (hp : (compilerUsage clustering).collect none as = p) (hused : p.isMisused = false) :
    p.operands.headD "" = "" ∨
      c.file = "--" ∧ (p.operands.headD "" = "-v" ∨ p.operands.headD "" = "--strict") := by
  obtain ⟨a, ha, ⟨rfl, rfl⟩ | ⟨hne, back, hback, rfl⟩⟩ := Usage.arguments_cons_eq_ok_iff.mp has
  · rw [Usage.operands_of_collect_terminator hp hused]
    have hfile := Usage.eq_of_argument_eq_terminator ha
    exact (switches_headD c).imp_right fun hhead => ⟨hfile, hhead⟩
  · obtain rfl := Except.ok.inj ((arguments_switches c).symm.trans hback)
    have hnone : p.operands = [] := by
      subst hp
      refine Usage.operands_of_collect _ none _ (List.forall_mem_cons.mpr ⟨⟨?_, hne⟩, ?_⟩) hused
      · rintro text rfl
        exact h (Usage.isOperand_of_argument wellNamed_of_mem ha).2
      · cases hv : c.verbose <;> cases hs : c.strict <;> simp [readSwitches, hv, hs]
    simp [hnone]

/-- Otherwise the compiler finds another file, or none. -/
theorem file_of_not_isHandedOn (h : ¬c.IsHandedOn clustering)
    (hc' : ofArguments clustering c.arguments = .ok c') :
    c.file ≠ "" ∧ ¬(compilerUsage clustering).IsOperand c.file ∧
      (c'.file = "" ∨ c.file = "--" ∧ (c'.file = "-v" ∨ c'.file = "--strict")) := by
  obtain ⟨p, hp, -, hused, rfl⟩ := ofArguments_eq_ok_iff.mp hc'
  obtain ⟨as, has, rfl⟩ := Usage.parse_eq_ok_iff.mp hp
  rw [arguments_eq] at has
  obtain ⟨a, ha, ⟨rfl, -⟩ | ⟨-, as, htexts, rfl⟩⟩ := Usage.arguments_cons_eq_ok_iff.mp has
  · exact absurd (Except.ok.inj ha) (by simp)
  obtain rfl : Argument.option targetFlag "--target" none = a := Except.ok.inj ha
  obtain ⟨text, rest, rfl⟩ := exists_of_collect_target rfl hused
  obtain ⟨a, ha, ⟨-, heq⟩ | ⟨-, back, hrest, heq⟩⟩ := Usage.arguments_cons_eq_ok_iff.mp htexts
  · simp at heq
  obtain ⟨rfl, rfl⟩ := List.cons.inj heq
  obtain ⟨rfl, htarget⟩ := Usage.isOperand_of_argument wellNamed_of_mem ha
  obtain ⟨hempty, hfile⟩ : c.file ≠ "" ∧ ¬(compilerUsage clustering).IsOperand c.file := by
    simpa [IsHandedOn, htarget] using h
  rw [if_neg hempty, List.singleton_append] at hrest
  rw [collect_arguments, Parsed.after_isMisused] at hused
  have hhead := headD_of_not_isOperand hfile hrest rfl hused
  refine ⟨hempty, hfile, ?_⟩
  rw [collect_arguments]
  exact hhead

/-! ### What is compiled -/

theorem test_eq_false (h : ofCommandArguments clustering texts = .ok c) : c.test = false := by
  obtain ⟨p, hp, -, -, rfl⟩ := ofCommandArguments_eq_ok_iff.mp h
  exact has_test_eq_false hp

/-- An environment in which no file can be read. -/
def unreadable : Environment where
  directory := "/"
  hasFile _ := false
  opened _ := .error (.other "")
  load _ := .error (.other "")
  validate _ := none

/-- The path of the table that is read first. -/
def firstPath (c : Compilation) : String :=
  if c.test then unreadable.builtin "x86" else unreadable.pathOf c.file c.target

/-- Where no file can be read, it is told by the missing outcome which file is read. -/
theorem run_unreadable [Capacity] (c : Compilation) :
    c.run unreadable = .error (.load (.file c.firstPath (.other ""))) := by
  have hload (path : String) : Table.load unreadable path = .error (.file path (.other "")) :=
    Table.load_of_failure rfl
  cases htest : c.test with
  | true =>
      have hdatabase : testDatabase unreadable =
          .error (.load (.file (unreadable.builtin "x86") (.other ""))) := rfl
      simp [run, runTest, htest, hdatabase, firstPath, CommandError.isSyntax]
  | false => simp [run, htest, hload, firstPath, LoadError.isReported]

theorem head?_of_not_isOperand {text : String}
    (h : ¬(compilerUsage clustering).IsOperand text) : text.toList.head? = some '-' := by
  by_contra hne
  exact h (.inl hne)

/-- Another file is read from another path. -/
theorem firstPath_ne (htest : c.test = false) (hempty : c.file ≠ "")
    (hhyphen : c.file.toList.head? = some '-')
    (h : c'.file = "" ∨ c.file = "--" ∧ (c'.file = "-v" ∨ c'.file = "--strict")) :
    c'.firstPath ≠ c.firstPath := by
  have hfirst : c.firstPath = Path.normal c.file := by
    simp [firstPath, htest, Environment.pathOf, hempty]
  have hhead := Path.head?_normal_of_hyphen hhyphen
  have hbuiltin (target : String) : (unreadable.builtin target).toList.head? = some '/' :=
    Path.head?_under _ rfl
  rw [hfirst]
  intro heq
  rw [← heq, firstPath] at hhead
  split at hhead
  · simp [hbuiltin] at hhead
  · next htest' =>
    obtain hnone | ⟨hfile, hfile'⟩ := h
    · simp [Environment.pathOf, hnone, hbuiltin] at hhead
    · rw [firstPath, if_neg htest', hfile] at heq
      obtain hfile' | hfile' := hfile' <;>
      · rw [hfile', Environment.pathOf, if_neg (by decide)] at heq
        exact absurd heq (by decide)

end Compilation

section

variable [Capacity] {env : Environment} {clustering : Clustering} {arguments : List String}
  {c c' : Compilation}

theorem run_parse (hc : Compilation.ofCommandArguments clustering arguments = .ok c) :
    run env clustering ("parse" :: arguments) = runCompiler env clustering c.arguments := by
  rw [run, Command.ofArguments_parse hc, runCompiler]
  cases Compilation.ofArguments clustering c.arguments <;> rfl

theorem runCompiler_of_ofArguments (h : Compilation.ofArguments clustering arguments = .ok c) :
    runCompiler env clustering arguments = c.run env := by
  rw [runCompiler, h]

open Compilation in
/-- A compiler that does what it is meant to do, whatever files there are, has read the target and
the file as operands. -/
theorem isHandedOn_of_forall (htest : c.test = false)
    (hall : ∀ env, runCompiler env clustering c.arguments = c.run env) :
    c.IsHandedOn clustering := by
  by_contra hnot
  have hrun := hall unreadable
  rw [run_unreadable, runCompiler] at hrun
  cases hc' : ofArguments clustering c.arguments with
  | error e => simp [hc'] at hrun
  | ok c' =>
      obtain ⟨hempty, hfile, hfile'⟩ := file_of_not_isHandedOn hnot hc'
      have hne := firstPath_ne htest hempty (head?_of_not_isOperand hfile) hfile'
      simp [hc', run_unreadable, hne] at hrun

open Compilation in
/-- Arguments that the compile command and the compiler both accept make them do the same, whatever
files there are, exactly if the compiler reads the target and the file as operands. -/
theorem run_parse_eq_runCompiler_iff (hc : ofCommandArguments clustering arguments = .ok c)
    (hc' : ofArguments clustering arguments = .ok c') :
    (∀ env, run env clustering ("parse" :: arguments) = runCompiler env clustering arguments) ↔
      c.IsHandedOn clustering := by
  obtain rfl := ofArguments_unique hc hc'
  have htest := test_eq_false hc
  simp only [run_parse hc, runCompiler_of_ofArguments hc']
  constructor
  · exact isHandedOn_of_forall htest
  · intro h env
    rw [runCompiler_of_ofArguments (ofArguments_arguments h), ← htest]

end

open Compilation in
/-- A file with an ordinary name is compiled alike, and the name of an option is not. -/
theorem run_parse_table :
    (∀ env, run env .dropsEquals ["parse", "-vt=arm", "table.yaml"] =
      runCompiler env .dropsEquals ["-vt=arm", "table.yaml"]) ∧
      ¬∀ env, run env .dropsEquals ["parse", "--", "-v"] =
        runCompiler env .dropsEquals ["--", "-v"] := by
  have hc : ofCommandArguments .dropsEquals ["-vt=arm", "table.yaml"] =
      .ok { file := "table.yaml", target := "arm", verbose := true } := by decide +kernel
  have hc' : ofArguments .dropsEquals ["-vt=arm", "table.yaml"] =
      .ok { file := "table.yaml", target := "arm", verbose := true } := by decide +kernel
  have hoption : ofCommandArguments .dropsEquals ["--", "-v"] = .ok { file := "-v" } := by
    decide +kernel
  have hoption' : ofArguments .dropsEquals ["--", "-v"] = .ok { file := "-v" } := by
    decide +kernel
  constructor
  · exact (run_parse_eq_runCompiler_iff hc hc').mpr (by decide)
  · intro hall
    exact absurd ((run_parse_eq_runCompiler_iff hoption hoption').mp hall) (by decide)

open Compilation in
/-- A file that looks like an option is refused when its name is handed on. -/
theorem not_forall_run_parse_eq_runCompiler :
    ¬∀ (env : Environment) (clustering : Clustering) (arguments : List String)
      (c c' : Compilation), ofCommandArguments clustering arguments = .ok c →
        ofArguments clustering arguments = .ok c' →
          run env clustering ("parse" :: arguments) = runCompiler env clustering arguments := by
  intro hall
  have hrun := hall (Files.environment (fun _ => none) "data") .dropsEquals ["--", "--foo"]
    { file := "--foo" } { file := "--foo" } (by decide +kernel) (by decide +kernel)
  revert hrun
  decide +kernel

end CommandLine

end InstrTable
